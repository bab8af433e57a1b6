import Mathlib.Data.List.Induction
import Mathlib.Tactic.Ring

/-!
# Byte strings, big-endian numerals and cursors

`beNat` reads a big-endian numeral and `beBytes` writes one of a given width.
`At d o s` says that `s` is what is left of `d` from offset `o` on. A parser
that walks a buffer by offsets is followed with it: a field is read where the
cursor stands and the cursor moves past it.
-/
namespace Pybmpmon.Lib.ByteString

abbrev Bytes := List UInt8

/-- The natural number a big-endian byte string spells. -/
def beNat (b : Bytes) : Nat := b.foldl (fun acc x => acc * 256 + x.toNat) 0

/-- The `width` low bytes of a number, most significant first. -/
def beBytes : Nat → Nat → Bytes
  | 0, _ => []
  | width + 1, v => beBytes width (v / 256) ++ [UInt8.ofNat (v % 256)]

@[simp] theorem beBytes_length (width v : Nat) : (beBytes width v).length = width := by
  induction width generalizing v with
  | zero => rfl
  | succ width ih => simp [beBytes, ih]

/-- Numbers written in a row, `width` octets each. -/
theorem flatMap_beBytes_length (width : Nat) (ns : List Nat) :
    (ns.flatMap (beBytes width)).length = ns.length * width := by
  induction ns with
  | nil => simp
  | cons n ns ih =>
    rw [List.flatMap_cons, List.length_append, beBytes_length, ih, List.length_cons, Nat.succ_mul]
    omega

@[simp] theorem beNat_nil : beNat [] = 0 := rfl

@[simp] theorem beNat_singleton (x : UInt8) : beNat [x] = x.toNat := by simp [beNat]

theorem beNat_append_byte (b : Bytes) (x : UInt8) : beNat (b ++ [x]) = beNat b * 256 + x.toNat := by
  simp [beNat, List.foldl_append]

theorem beNat_append (a b : Bytes) : beNat (a ++ b) = beNat a * 256 ^ b.length + beNat b := by
  induction b using List.reverseRecOn with
  | nil => simp
  | append_singleton b x ih =>
    rw [← List.append_assoc, beNat_append_byte, ih, beNat_append_byte]
    simp only [List.length_append, List.length_singleton, Nat.pow_succ]
    ring

theorem beNat_lt (b : Bytes) : beNat b < 256 ^ b.length := by
  induction b using List.reverseRecOn with
  | nil => simp
  | append_singleton b x ih =>
    have hx : x.toNat < 256 := x.toNat_lt
    rw [beNat_append_byte, List.length_append, List.length_singleton, Nat.pow_succ]
    omega

/-- A written number is read back when it fits the width. -/
theorem beNat_beBytes {width v : Nat} (h : v < 256 ^ width) : beNat (beBytes width v) = v := by
  induction width generalizing v with
  | zero =>
    simp only [Nat.pow_zero] at h
    simp [beBytes]
    omega
  | succ width ih =>
    have hdiv : v / 256 < 256 ^ width := by
      rw [Nat.pow_succ] at h
      exact Nat.div_lt_of_lt_mul (by rw [Nat.mul_comm]; exact h)
    have hmod : (UInt8.ofNat (v % 256)).toNat = v % 256 := by
      simp [UInt8.toNat_ofNat']
    rw [beBytes, beNat_append_byte, ih hdiv, hmod]
    omega

theorem octet_toNat {v : Nat} (h : v < 256) : (UInt8.ofNat v).toNat = v := by
  rw [UInt8.toNat_ofNat', Nat.mod_eq_of_lt h]

/-- A read number writes the bytes it was read from. -/
theorem beBytes_beNat (b : Bytes) : beBytes b.length (beNat b) = b := by
  induction b using List.reverseRecOn with
  | nil => rfl
  | append_singleton b x ih =>
    have hx : x.toNat < 256 := x.toNat_lt
    rw [List.length_append, List.length_singleton, beBytes, beNat_append_byte]
    have hd : (beNat b * 256 + x.toNat) / 256 = beNat b := by omega
    have hm : (beNat b * 256 + x.toNat) % 256 = x.toNat := by omega
    rw [hd, hm, ih]
    simp

theorem beBytes_zero (width : Nat) : beBytes width 0 = List.replicate width 0 := by
  induction width with
  | zero => rfl
  | succ width ih =>
    rw [beBytes, Nat.zero_div, ih, List.replicate_succ']
    rfl

theorem beNat_eq_zero_iff {b : Bytes} : beNat b = 0 ↔ ∀ x ∈ b, x = 0 := by
  constructor
  · intro h x hx
    have hwritten := beBytes_beNat b
    rw [h, beBytes_zero] at hwritten
    rw [← hwritten] at hx
    exact List.eq_of_mem_replicate hx
  · intro h
    rw [List.eq_replicate_of_mem h, ← beBytes_zero, beNat_beBytes (Nat.pow_pos (by decide))]

/-- A multiple of `256 ^ n` ends in `n` zero octets. -/
theorem drop_eq_zeros {b : Bytes} {k : Nat} (h : beNat b % 256 ^ (b.length - k) = 0) :
    b.drop k = List.replicate (b.length - k) 0 := by
  have hsplit := beNat_append (b.take k) (b.drop k)
  rw [List.take_append_drop, List.length_drop] at hsplit
  have hlt := beNat_lt (b.drop k)
  rw [List.length_drop] at hlt
  rw [hsplit, Nat.mul_add_mod_self_right, Nat.mod_eq_of_lt hlt] at h
  have hwritten := beBytes_beNat (b.drop k)
  rw [h, beBytes_zero, List.length_drop] at hwritten
  exact hwritten.symm

/-- From offset `o` on, `d` reads `s`. -/
structure At (d : Bytes) (o : Nat) (s : Bytes) : Prop where
  rest : d.drop o = s
  le : o ≤ d.length

theorem at_zero (d : Bytes) : At d 0 d := ⟨rfl, Nat.zero_le _⟩

theorem At.length {d s : Bytes} {o : Nat} (h : At d o s) : d.length = o + s.length := by
  have hl := congrArg List.length h.rest
  have hle := h.le
  rw [List.length_drop] at hl
  omega

/-- The cursor moves past a field that has been read. -/
theorem At.advance {d a s : Bytes} {o : Nat} (h : At d o (a ++ s)) : At d (o + a.length) s := by
  have hl := h.length
  rw [List.length_append] at hl
  exact ⟨by rw [← List.drop_drop, h.rest, List.drop_left], by omega⟩

theorem At.advance_of {d a s : Bytes} {o n : Nat} (h : At d o (a ++ s)) (ha : a.length = n) :
    At d (o + n) s := ha ▸ h.advance

theorem At.tail {d s : Bytes} {b : UInt8} {o : Nat} (h : At d o (b :: s)) : At d (o + 1) s :=
  At.advance (a := [b]) h

theorem At.take {d a s : Bytes} {o n : Nat} (h : At d o (a ++ s)) (ha : a.length = n) :
    (d.drop o).take n = a := by
  rw [h.rest, ← ha, List.take_left]

theorem At.getElem? {d s : Bytes} {o : Nat} (h : At d o s) (k : Nat) : d[o + k]? = s[k]? := by
  rw [← h.rest, List.getElem?_drop]

end Pybmpmon.Lib.ByteString
