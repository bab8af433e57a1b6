import Pybmpmon.Python

/-!
# Reads at an offset

The readers of `utils/binary.py`. Each checks the buffer before it reads, so the
index and unpacking errors behind the check never surface; a reader fails with
`ValueError` exactly when the field leaves the buffer.
-/
namespace Pybmpmon.Utils.Binary

open Pybmpmon.Lib.ByteString Pybmpmon.Lib.Outcome Pybmpmon.Python

/-- `data[offset]`. -/
def index (data : Bytes) (offset : Nat) : Except PyErr Nat :=
  match data[offset]? with
  | some b => .ok b.toNat
  | none => .error .indexError

/-- `struct.unpack_from` of one unsigned big-endian integer of `size` bytes. -/
def unpackFrom (size : Nat) (data : Bytes) (offset : Nat) : Except PyErr Nat :=
  if data.length < offset + size then .error .structError
  else .ok (beNat ((data.drop offset).take size))

def readUint8 (data : Bytes) (offset : Nat) : Except PyErr Nat :=
  if data.length < offset + 1 then
    .error (.valueError s!"Not enough data to read uint8 at offset {offset}: need {offset + 1} bytes, got {data.length}")
  else index data offset

def readUint16 (data : Bytes) (offset : Nat) : Except PyErr Nat :=
  if data.length < offset + 2 then
    .error (.valueError s!"Not enough data to read uint16 at offset {offset}: need {offset + 2} bytes, got {data.length}")
  else unpackFrom 2 data offset

def readUint32 (data : Bytes) (offset : Nat) : Except PyErr Nat :=
  if data.length < offset + 4 then
    .error (.valueError s!"Not enough data to read uint32 at offset {offset}: need {offset + 4} bytes, got {data.length}")
  else unpackFrom 4 data offset

/-- The length may be negative: the callers subtract offsets from a declared length. -/
def readBytes (data : Bytes) (offset : Nat) (length : Int) : Except PyErr Bytes :=
  if (data.length : Int) < offset + length then
    .error (.valueError s!"Not enough data to read {length} bytes at offset {offset}: need {offset + length} bytes, got {data.length}")
  else .ok (slice data offset (offset + length))

def readIpv4Address (data : Bytes) (offset : Nat) : Except PyErr IPv4Address :=
  if data.length < offset + 4 then
    .error (.valueError s!"Not enough data to read IPv4 address at offset {offset}: need {offset + 4} bytes, got {data.length}")
  else ipv4Address (slice data offset (offset + 4 : Nat))

def readIpv6Address (data : Bytes) (offset : Nat) : Except PyErr IPv6Address :=
  if data.length < offset + 16 then
    .error (.valueError s!"Not enough data to read IPv6 address at offset {offset}: need {offset + 16} bytes, got {data.length}")
  else ipv6Address (slice data offset (offset + 16 : Nat))

def readIpAddress (data : Bytes) (offset : Nat) (isIpv6 : Bool) : Except PyErr IpAddress :=
  if data.length < offset + 16 then
    .error (.valueError s!"Not enough data to read IP address at offset {offset}: need {offset + 16} bytes, got {data.length}")
  else
    let addrBytes := slice data offset (offset + 16 : Nat)
    if isIpv6 || (addrBytes.take 12).any (· != 0) then
      IpAddress.v6 <$> ipv6Address addrBytes
    else
      IpAddress.v4 <$> ipv4Address (slice addrBytes 12 16)

/-! ## Reads inside the buffer -/

theorem index_ok {data : Bytes} {offset : Nat} (h : offset < data.length) :
    index data offset = .ok data[offset].toNat := by
  rw [index, List.getElem?_eq_getElem h]

theorem readUint8_ok {data : Bytes} {offset : Nat} (h : offset < data.length) :
    readUint8 data offset = .ok data[offset].toNat := by
  rw [readUint8, if_neg (by omega), index_ok h]

theorem readUint16_ok {data : Bytes} {offset : Nat} (h : offset + 2 ≤ data.length) :
    readUint16 data offset = .ok (beNat ((data.drop offset).take 2)) := by
  rw [readUint16, if_neg (by omega), unpackFrom, if_neg (by omega)]

theorem readUint32_ok {data : Bytes} {offset : Nat} (h : offset + 4 ≤ data.length) :
    readUint32 data offset = .ok (beNat ((data.drop offset).take 4)) := by
  rw [readUint32, if_neg (by omega), unpackFrom, if_neg (by omega)]

theorem readBytes_ok {data : Bytes} {offset size : Nat} (h : offset + size ≤ data.length) :
    readBytes data offset size = .ok ((data.drop offset).take size) := by
  rw [readBytes, if_neg (by omega), slice_window]

/-- A read of negative length inside the buffer returns no bytes. -/
theorem readBytes_backwards {data : Bytes} {offset : Nat} {length : Int} (h0 : 0 ≤ offset + length)
    (hneg : length ≤ 0) (h : offset + length ≤ data.length) :
    readBytes data offset length = .ok [] := by
  rw [readBytes, if_neg (by omega), slice_backwards data h0 (by omega)]

/-- A read up to a stop inside the buffer returns, whichever side of the offset the stop is on. -/
theorem readBytes_upto {data : Bytes} {offset stop : Nat} (h : stop ≤ data.length) :
    readBytes data offset ((stop : Int) - offset) = .ok ((data.drop offset).take (stop - offset)) := by
  by_cases hle : offset ≤ stop
  · have hsub : (stop : Int) - offset = ((stop - offset : Nat) : Int) := by omega
    rw [hsub, readBytes_ok (by omega)]
  · rw [readBytes_backwards (by omega) (by omega) (by omega), Nat.sub_eq_zero_of_le (by omega),
      List.take_zero]

theorem window_length {data : Bytes} {offset size : Nat} (h : offset + size ≤ data.length) :
    ((data.drop offset).take size).length = size := by
  rw [List.length_take, List.length_drop]
  omega

theorem slice_nat (data : Bytes) (offset size : Nat) :
    slice data offset (offset + size : Nat) = (data.drop offset).take size := by
  rw [← slice_window]
  norm_cast

theorem readIpv4Address_ok {data : Bytes} {offset : Nat} (h : offset + 4 ≤ data.length) :
    readIpv4Address data offset = .ok ⟨(data.drop offset).take 4, window_length h⟩ := by
  rw [readIpv4Address, if_neg (by omega), slice_nat]
  exact ipv4Address_ok (window_length h)

/-- An address field that lies in the buffer is read, by either interpretation. -/
theorem readIpAddress_returns {data : Bytes} {offset : Nat} (isIpv6 : Bool)
    (h : offset + 16 ≤ data.length) : ∃ a, readIpAddress data offset isIpv6 = .ok a := by
  have hw := window_length h
  rw [readIpAddress, if_neg (by omega), slice_nat]
  simp only
  split
  · exact ⟨_, by rw [ipv6Address_ok hw, ok_map]⟩
  · have h4 : (slice ((data.drop offset).take 16) 12 16).length = 4 := by
      rw [show (16 : Int) = (12 : Nat) + (4 : Nat) from rfl, slice_window, List.length_take,
        List.length_drop, hw]
      decide
    exact ⟨_, by rw [ipv4Address_ok h4, ok_map]⟩

/-! ## Reads anywhere raise nothing but `ValueError` -/

theorem raises_readUint8 (data : Bytes) (offset : Nat) :
    Raises (fun e => e.isValueError) (readUint8 data offset) := by
  by_cases h : offset < data.length
  · exact raises_of_ok (readUint8_ok h)
  · rw [readUint8, if_pos (by omega)]
    exact raises_error.mpr rfl

theorem raises_readUint16 (data : Bytes) (offset : Nat) :
    Raises (fun e => e.isValueError) (readUint16 data offset) := by
  by_cases h : offset + 2 ≤ data.length
  · exact raises_of_ok (readUint16_ok h)
  · rw [readUint16, if_pos (by omega)]
    exact raises_error.mpr rfl

theorem raises_readUint32 (data : Bytes) (offset : Nat) :
    Raises (fun e => e.isValueError) (readUint32 data offset) := by
  by_cases h : offset + 4 ≤ data.length
  · exact raises_of_ok (readUint32_ok h)
  · rw [readUint32, if_pos (by omega)]
    exact raises_error.mpr rfl

theorem raises_readBytes (data : Bytes) (offset : Nat) (length : Int) :
    Raises (fun e => e.isValueError) (readBytes data offset length) := by
  rw [readBytes]
  exact raises_ite (fun _ => raises_error.mpr rfl) (fun _ => raises_ok _)

theorem raises_ipv4Address (data : Bytes) : Raises (fun e => e.isValueError) (ipv4Address data) := by
  rw [ipv4Address]
  split
  · exact raises_ok _
  · exact raises_error.mpr rfl

theorem raises_ipv6Address (data : Bytes) : Raises (fun e => e.isValueError) (ipv6Address data) := by
  rw [ipv6Address]
  split
  · exact raises_ok _
  · exact raises_error.mpr rfl

theorem raises_readIpv4Address (data : Bytes) (offset : Nat) :
    Raises (fun e => e.isValueError) (readIpv4Address data offset) := by
  rw [readIpv4Address]
  exact raises_ite (fun _ => raises_error.mpr rfl) (fun _ => raises_ipv4Address _)

theorem raises_readIpAddress (data : Bytes) (offset : Nat) (isIpv6 : Bool) :
    Raises (fun e => e.isValueError) (readIpAddress data offset isIpv6) := by
  rw [readIpAddress]
  refine raises_ite (fun _ => raises_error.mpr rfl) (fun _ => ?_)
  exact raises_ite (fun _ => raises_map (raises_ipv6Address _))
    (fun _ => raises_map (raises_ipv4Address _))

/-! ## Reads where a cursor stands -/

theorem readUint8_at {data s : Bytes} {offset : Nat} {b : UInt8} (h : At data offset (b :: s)) :
    readUint8 data offset = .ok b.toNat := by
  have hl := h.length
  rw [List.length_cons] at hl
  have hg := h.getElem? 0
  rw [Nat.add_zero, List.getElem?_cons_zero] at hg
  rw [readUint8, if_neg (by omega), index, hg]

theorem readUint16_at {data a s : Bytes} {offset : Nat} (h : At data offset (a ++ s))
    (ha : a.length = 2) : readUint16 data offset = .ok (beNat a) := by
  have hl := h.length
  rw [List.length_append] at hl
  rw [readUint16_ok (by omega), h.take ha]

theorem readUint32_at {data a s : Bytes} {offset : Nat} (h : At data offset (a ++ s))
    (ha : a.length = 4) : readUint32 data offset = .ok (beNat a) := by
  have hl := h.length
  rw [List.length_append] at hl
  rw [readUint32_ok (by omega), h.take ha]

theorem readBytes_at {data a s : Bytes} {offset n : Nat} (h : At data offset (a ++ s))
    (ha : a.length = n) : readBytes data offset n = .ok a := by
  have hl := h.length
  rw [List.length_append] at hl
  rw [readBytes_ok (by omega), h.take ha]

/-- A read of everything that is left. -/
theorem readBytes_rest {data a : Bytes} {offset n : Nat} (h : At data offset a)
    (ha : a.length = n) : readBytes data offset n = .ok a :=
  readBytes_at (s := []) (by rwa [List.append_nil]) ha

theorem readIpv4Address_at {data a s : Bytes} {offset : Nat} (h : At data offset (a ++ s))
    (ha : a.length = 4) : readIpv4Address data offset = .ok ⟨a, ha⟩ := by
  have hl := h.length
  rw [List.length_append] at hl
  rw [readIpv4Address_ok (by omega)]
  simp only [h.take ha]

/-! ## Reads of written fields -/

theorem readUint8_octet {data s : Bytes} {offset v : Nat} (h : At data offset (UInt8.ofNat v :: s))
    (hv : v < 256) : readUint8 data offset = .ok v := by
  rw [readUint8_at h, octet_toNat hv]

theorem readUint16_beBytes {data s : Bytes} {offset v : Nat} (h : At data offset (beBytes 2 v ++ s))
    (hv : v < 2 ^ 16) : readUint16 data offset = .ok v := by
  rw [readUint16_at h (beBytes_length 2 v), beNat_beBytes (by omega)]

theorem readUint32_beBytes {data s : Bytes} {offset v : Nat} (h : At data offset (beBytes 4 v ++ s))
    (hv : v < 2 ^ 32) : readUint32 data offset = .ok v := by
  rw [readUint32_at h (beBytes_length 4 v), beNat_beBytes (by omega)]

/-! ## The bytes behind a read that returned -/

/-- The octets of a window spell its number, and the cursor moves past them. -/
theorem window_written {data s : Bytes} {offset size : Nat} (hat : At data offset s)
    (h : offset + size ≤ data.length) :
    ∃ s', s = beBytes size (beNat ((data.drop offset).take size)) ++ s' ∧ At data (offset + size) s' := by
  have hw := window_length h
  have hwritten := beBytes_beNat ((data.drop offset).take size)
  rw [hw] at hwritten
  have hs : s = beBytes size (beNat ((data.drop offset).take size)) ++ s.drop size := by
    rw [hwritten, hat.rest, List.take_append_drop]
  refine ⟨s.drop size, hs, ?_⟩
  rw [hs] at hat
  exact hat.advance_of (beBytes_length size _)

theorem window_lt {data : Bytes} {offset size : Nat} (h : offset + size ≤ data.length) :
    beNat ((data.drop offset).take size) < 256 ^ size := by
  have hlt := beNat_lt ((data.drop offset).take size)
  rwa [window_length h] at hlt

theorem readUint8_inv {data s : Bytes} {offset v : Nat} (hat : At data offset s)
    (h : readUint8 data offset = .ok v) :
    v < 256 ∧ ∃ s', s = UInt8.ofNat v :: s' ∧ At data (offset + 1) s' := by
  unfold readUint8 at h
  split at h
  · cases h
  · rename_i hsize
    rw [hat.length] at hsize
    cases s with
    | nil => exact absurd (Nat.lt_succ_self _) hsize
    | cons b s' =>
      have hg := hat.getElem? 0
      rw [Nat.add_zero, List.getElem?_cons_zero] at hg
      rw [index, hg] at h
      cases h
      exact ⟨b.toNat_lt, s', by rw [UInt8.ofNat_toNat], hat.tail⟩

theorem readUint16_inv {data s : Bytes} {offset v : Nat} (hat : At data offset s)
    (h : readUint16 data offset = .ok v) :
    v < 2 ^ 16 ∧ ∃ s', s = beBytes 2 v ++ s' ∧ At data (offset + 2) s' := by
  unfold readUint16 unpackFrom at h
  split at h
  · cases h
  · cases h
    exact ⟨window_lt (by omega), window_written hat (by omega)⟩

theorem readUint32_inv {data s : Bytes} {offset v : Nat} (hat : At data offset s)
    (h : readUint32 data offset = .ok v) :
    v < 2 ^ 32 ∧ ∃ s', s = beBytes 4 v ++ s' ∧ At data (offset + 4) s' := by
  unfold readUint32 unpackFrom at h
  split at h
  · cases h
  · cases h
    exact ⟨window_lt (by omega), window_written hat (by omega)⟩

theorem readBytes_inv {data s a : Bytes} {offset n : Nat} (hat : At data offset s)
    (h : readBytes data offset n = .ok a) :
    a.length = n ∧ ∃ s', s = a ++ s' ∧ At data (offset + n) s' := by
  unfold readBytes at h
  split at h
  · cases h
  · rename_i hsize
    rw [slice_window] at h
    cases h
    have hw : offset + n ≤ data.length := by omega
    have hs : s = (data.drop offset).take n ++ s.drop n := by
      rw [hat.rest, List.take_append_drop]
    refine ⟨window_length hw, s.drop n, hs, ?_⟩
    rw [hs] at hat
    exact hat.advance_of (window_length hw)

theorem readIpv4Address_inv {data s : Bytes} {offset : Nat} {a : IPv4Address}
    (hat : At data offset s) (h : readIpv4Address data offset = .ok a) :
    ∃ s', s = a.packed ++ s' ∧ At data (offset + 4) s' := by
  have hsize : offset + 4 ≤ data.length := by
    by_contra hlt
    rw [readIpv4Address, if_pos (by omega)] at h
    cases h
  rw [readIpv4Address_ok hsize] at h
  cases h
  have hread : readBytes data offset (4 : Nat) = .ok ((data.drop offset).take 4) := readBytes_ok hsize
  exact (readBytes_inv hat hread).2

end Pybmpmon.Utils.Binary
