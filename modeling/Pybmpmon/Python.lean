import Pybmpmon.Lib.ByteString
import Pybmpmon.Lib.Outcome

/-!
# The Python runtime the parsers rest on

Exceptions carry the text they are raised with. An address is kept as its packed
bytes: the text `ipaddress` prints for it is read back to the same address by
every consumer, so only the texts that are stored as text are printed here. A
loop that would not terminate ends in `diverges`, which no handler catches.
-/
namespace Pybmpmon.Python

open Pybmpmon.Lib.ByteString Pybmpmon.Lib.Outcome

inductive PyErr where
  | valueError (msg : String)
  | addressValueError (msg : String)
  | indexError
  | structError
  | unboundLocalError
  | runtimeError (msg : String)
  | bmpParseError (msg : String)
  | bgpParseError (msg : String)
  | postgresError
  | incompleteReadError
  | diverges
  deriving DecidableEq, Repr

/-- What `except Exception` catches: every outcome but a loop without end. -/
def PyErr.isException : PyErr → Bool
  | .diverges => false
  | _ => true

/-- What `except ValueError` catches. -/
def PyErr.isValueError : PyErr → Bool
  | .valueError _ => true
  | .addressValueError _ => true
  | _ => false

def PyErr.isBmpParseError : PyErr → Bool
  | .bmpParseError _ => true
  | _ => false

def PyErr.isBgpParseError : PyErr → Bool
  | .bgpParseError _ => true
  | _ => false

/-- `try: x` with `except ValueError as e: raise handler(e)`. -/
def exceptValueError {α : Type} (x : Except PyErr α) (handler : String → PyErr) :
    Except PyErr α :=
  match x with
  | .ok a => .ok a
  | .error (.valueError m) => .error (handler m)
  | .error (.addressValueError m) => .error (handler m)
  | .error e => .error e

@[simp] theorem exceptValueError_ok {α : Type} (a : α) (handler : String → PyErr) :
    exceptValueError (.ok a) handler = .ok a := rfl

theorem exceptValueError_ok_iff {α : Type} {x : Except PyErr α} {handler : String → PyErr} {a : α} :
    exceptValueError x handler = .ok a ↔ x = .ok a := by
  cases x with
  | ok b => simp
  | error e => cases e <;> simp [exceptValueError]

/-- A handler leaves no `ValueError`: it lets through the other errors, or raises its own. -/
theorem raises_exceptValueError {α : Type} {p : PyErr → Prop} {x : Except PyErr α}
    {handler : String → PyErr} (hx : Raises (fun e => e.isValueError ∨ p e) x)
    (hh : ∀ m, p (handler m)) : Raises p (exceptValueError x handler) := by
  cases x with
  | ok a => exact raises_ok a
  | error e =>
    rcases hx e rfl with hv | hp
    · cases e with
      | valueError m => exact raises_error.mpr (hh m)
      | addressValueError m => exact raises_error.mpr (hh m)
      | _ => cases hv
    · cases e with
      | valueError m => exact raises_error.mpr (hh m)
      | addressValueError m => exact raises_error.mpr (hh m)
      | _ => exact raises_error.mpr hp

/-- `data[start:stop]` for a start that is not negative. -/
def slice (data : Bytes) (start : Nat) (stop : Int) : Bytes :=
  (data.take (if stop < 0 then stop + data.length else stop).toNat).drop start

theorem slice_window (data : Bytes) (start size : Nat) :
    slice data start (start + size) = (data.drop start).take size := by
  have hpos : ¬((start : Int) + (size : Int) < 0) := by omega
  have hnat : ((start : Int) + (size : Int)).toNat = start + size := by omega
  rw [slice, if_neg hpos, hnat, List.take_drop]

/-- A slice that stops before it starts is empty. -/
theorem slice_backwards (data : Bytes) {start : Nat} {stop : Int} (h0 : 0 ≤ stop)
    (h : stop ≤ start) : slice data start stop = [] := by
  rw [slice, if_neg (by omega)]
  apply List.drop_eq_nil_of_le
  rw [List.length_take]
  omega

/-- `f"{b:02x}"`. -/
def hex2 (b : UInt8) : String :=
  String.ofList [Nat.digitChar (b.toNat / 16), Nat.digitChar (b.toNat % 16)]

/-- `data.hex()`. -/
def hex (data : Bytes) : String := String.join (data.map hex2)

/-- `":".join(f"{b:02x}" for b in data)`. -/
def colonHex (data : Bytes) : String := ":".intercalate (data.map hex2)

structure IPv4Address where
  packed : Bytes
  size : packed.length = 4
  deriving DecidableEq, Repr

/-- The address written `a.b.c.d`. -/
def IPv4Address.ofOctets (a b c d : UInt8) : IPv4Address := ⟨[a, b, c, d], rfl⟩

structure IPv6Address where
  packed : Bytes
  size : packed.length = 16
  deriving DecidableEq, Repr

/-- `IPv4Address(data)` for packed bytes. -/
def ipv4Address (data : Bytes) : Except PyErr IPv4Address :=
  if h : data.length = 4 then .ok ⟨data, h⟩
  else .error (.addressValueError s!"{hex data} (len {data.length} != 4)")

/-- `IPv6Address(data)` for packed bytes. -/
def ipv6Address (data : Bytes) : Except PyErr IPv6Address :=
  if h : data.length = 16 then .ok ⟨data, h⟩
  else .error (.addressValueError s!"{hex data} (len {data.length} != 16)")

theorem ipv4Address_ok {data : Bytes} (h : data.length = 4) : ipv4Address data = .ok ⟨data, h⟩ :=
  dif_pos h

theorem ipv6Address_ok {data : Bytes} (h : data.length = 16) : ipv6Address data = .ok ⟨data, h⟩ :=
  dif_pos h

/-- `str(address)`: the four bytes in decimal, separated by dots. -/
def IPv4Address.str (a : IPv4Address) : String :=
  ".".intercalate (a.packed.map fun b => toString b.toNat)

inductive IpAddress where
  | v4 (a : IPv4Address)
  | v6 (a : IPv6Address)
  deriving DecidableEq, Repr

/-- Width of the address in bits. -/
def IpAddress.width : IpAddress → Nat
  | .v4 _ => 32
  | .v6 _ => 128

def IpAddress.packed : IpAddress → Bytes
  | .v4 a => a.packed
  | .v6 a => a.packed

/-- The text `address/length` of a prefix, kept as the address and the length. -/
structure Cidr where
  address : IpAddress
  prefixLen : Nat
  fits : prefixLen ≤ address.width
  deriving DecidableEq, Repr

theorem IpAddress.octet_le_width (a : IpAddress) : 8 ≤ a.width := by
  cases a <;> simp [width]

/-- The prefix of length eight with the first octet given. -/
def Cidr.ofOctet (octet : UInt8) : Cidr :=
  ⟨.v4 (.ofOctets octet 0 0 0), 8, IpAddress.octet_le_width _⟩

/-- No address bit is set beyond the prefix length. -/
def Cidr.hostBitsZero (c : Cidr) : Bool :=
  beNat c.address.packed % 2 ^ (c.address.width - c.prefixLen) == 0

end Pybmpmon.Python
