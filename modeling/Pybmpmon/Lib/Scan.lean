import Pybmpmon.Lib.Outcome
import Pybmpmon.Lib.ByteString

/-!
# Loops over an offset

`scan` is the loop `while offset < stop`: its body appends some items and moves
the offset, or breaks, or raises. The fuel is the distance to `stop`; a body
that always moves the offset forward never spends it, and one that does not is
reported as `stuck`, not as a result.
-/
namespace Pybmpmon.Lib.Scan

open Pybmpmon.Lib.Outcome Pybmpmon.Lib.ByteString

variable {ε α β : Type}

/-- What one round of a loop yields: items to append, and the next offset or a break. -/
abbrev Round (α : Type) := List α × Option Nat

def scanFrom (stuck : ε) (body : Nat → Except ε (Round α)) (stop : Nat) :
    Nat → Nat → Except ε (List α)
  | 0, offset => if offset < stop then .error stuck else .ok []
  | fuel + 1, offset =>
      if offset < stop then do
        let (items, next) ← body offset
        match next with
        | none => .ok items
        | some next => do
            let rest ← scanFrom stuck body stop fuel next
            .ok (items ++ rest)
      else .ok []

def scan (stuck : ε) (body : Nat → Except ε (Round α)) (stop offset : Nat) : Except ε (List α) :=
  scanFrom stuck body stop (stop - offset) offset

/-- Every round that goes on moves the offset forward. -/
def Advances (body : Nat → Except ε (Round α)) : Prop :=
  ∀ offset items next, body offset = .ok (items, some next) → offset < next

theorem scanFrom_done {stuck : ε} {body : Nat → Except ε (Round α)} {stop fuel offset : Nat}
    (h : stop ≤ offset) : scanFrom stuck body stop fuel offset = .ok [] := by
  cases fuel <;> simp [scanFrom, Nat.not_lt.mpr h]

theorem scan_done {stuck : ε} {body : Nat → Except ε (Round α)} {stop offset : Nat}
    (h : stop ≤ offset) : scan stuck body stop offset = .ok [] := scanFrom_done h

/-- Fuel beyond the distance to `stop` changes nothing. -/
theorem scanFrom_fuel {stuck : ε} {body : Nat → Except ε (Round α)} {stop : Nat}
    (hadv : Advances body) :
    ∀ (fuel fuel' offset : Nat), stop - offset ≤ fuel → stop - offset ≤ fuel' →
      scanFrom stuck body stop fuel offset = scanFrom stuck body stop fuel' offset := by
  intro fuel
  induction fuel with
  | zero =>
    intro fuel' offset h _
    have hle : stop ≤ offset := by omega
    rw [scanFrom_done hle, scanFrom_done hle]
  | succ fuel ih =>
    intro fuel' offset h h'
    by_cases hlt : offset < stop
    · obtain ⟨m, rfl⟩ : ∃ m, fuel' = m + 1 := ⟨fuel' - 1, by omega⟩
      simp only [scanFrom, hlt, ↓reduceIte]
      cases hb : body offset with
      | error e => rfl
      | ok round =>
        obtain ⟨items, next⟩ := round
        cases next with
        | none => rfl
        | some next =>
          have hn := hadv offset items next hb
          simp only [ok_bind]
          rw [ih m next (by omega) (by omega)]
    · have hle : stop ≤ offset := by omega
      rw [scanFrom_done hle, scanFrom_done hle]

/-- One round of the loop, with no fuel in sight. -/
theorem scan_step {stuck : ε} {body : Nat → Except ε (Round α)} {stop offset : Nat}
    (hadv : Advances body) (hlt : offset < stop) :
    scan stuck body stop offset = (do
      let (items, next) ← body offset
      match next with
      | none => .ok items
      | some next => do
          let rest ← scan stuck body stop next
          .ok (items ++ rest)) := by
  unfold scan
  obtain ⟨fuel, hfuel⟩ : ∃ fuel, stop - offset = fuel + 1 := ⟨stop - offset - 1, by omega⟩
  rw [hfuel]
  simp only [scanFrom, hlt, ↓reduceIte]
  cases hb : body offset with
  | error e => rfl
  | ok round =>
    obtain ⟨items, next⟩ := round
    cases next with
    | none => rfl
    | some next =>
      have hn := hadv offset items next hb
      simp only [ok_bind]
      rw [scanFrom_fuel hadv fuel (stop - next) next (by omega) (by omega)]

/-- A loop raises what its body raises below `stop`, and is never stuck. -/
theorem raises_scan {p : ε → Prop} {stuck : ε} {body : Nat → Except ε (Round α)} {stop : Nat}
    (hadv : Advances body) (hbody : ∀ offset, offset < stop → Raises p (body offset)) :
    ∀ offset, Raises p (scan stuck body stop offset) := by
  intro offset
  induction hd : stop - offset using Nat.strong_induction_on generalizing offset with
  | h d ih =>
    by_cases hlt : offset < stop
    · rw [scan_step hadv hlt]
      refine raises_bind (hbody offset hlt) ?_
      rintro ⟨items, next⟩ hb
      cases next with
      | none => exact raises_ok _
      | some next =>
        have hn := hadv offset items next hb
        exact raises_bind (ih (stop - next) (by omega) next rfl) (fun _ _ => raises_ok _)
    · rw [scan_done (by omega)]
      exact raises_ok _

/-- A loop over consecutive encodings returns what its rounds decode, in order. -/
theorem scan_encoded {stuck : ε} {body : Nat → Except ε (Round α)} {d : Bytes} {stop : Nat}
    {enc : β → Bytes} {dec : β → List α} (hadv : Advances body) :
    ∀ (items : List β) (offset : Nat) (rest : Bytes),
      At d offset (items.flatMap enc ++ rest) →
      stop = offset + (items.flatMap enc).length →
      (∀ b ∈ items, enc b ≠ []) →
      (∀ b ∈ items, ∀ o s, At d o (enc b ++ s) → o + (enc b).length ≤ stop →
        body o = .ok (dec b, some (o + (enc b).length))) →
      scan stuck body stop offset = .ok (items.flatMap dec) := by
  intro items
  induction items with
  | nil =>
    intro offset rest _ hstop _ _
    rw [hstop]
    exact scan_done (by simp)
  | cons b items ih =>
    intro offset rest hat hstop hne hbody
    have hb : At d offset (enc b ++ (items.flatMap enc ++ rest)) := by
      simpa [List.flatMap_cons, List.append_assoc] using hat
    have hpos : 0 < (enc b).length := List.length_pos_iff.mpr (hne b (by simp))
    rw [List.flatMap_cons, List.length_append] at hstop
    rw [scan_step hadv (by omega), hbody b (by simp) offset _ hb (by omega)]
    have hrest := ih (offset + (enc b).length) rest hb.advance (by omega)
      (fun c hc => hne c (by simp [hc])) (fun c hc => hbody c (by simp [hc]))
    simp only [ok_bind, hrest, List.flatMap_cons]

/-- Two loops whose rounds agree at a fixed distance return the same. -/
theorem scan_shift {stuck : ε} {body body' : Nat → Except ε (Round α)} {shift : Nat}
    (hadv : Advances body) (hadv' : Advances body')
    (hround : ∀ k, Same (body (shift + k))
      ((fun round => (round.1, round.2.map (shift + ·))) <$> body' k)) (stop k : Nat) :
    Same (scan stuck body (shift + stop) (shift + k)) (scan stuck body' stop k) := by
  induction hd : stop - k using Nat.strong_induction_on generalizing k with
  | h d ih =>
    by_cases hlt : k < stop
    · have hr := hround k
      rw [scan_step hadv (by omega), scan_step hadv' hlt]
      cases hb : body' k with
      | error e =>
        rw [hb] at hr
        cases hx : body (shift + k) with
        | error e' => exact same_error _ _
        | ok round =>
          rw [hx] at hr
          cases hr
      | ok round =>
        obtain ⟨items, next⟩ := round
        rw [hb] at hr
        rw [same_ok_iff.mp hr]
        cases next with
        | none => exact same_refl _
        | some next =>
          have hn := hadv' k items next hb
          show Same (scan stuck body (shift + stop) (shift + next) >>= fun rest => .ok (items ++ rest))
            (scan stuck body' stop next >>= fun rest => .ok (items ++ rest))
          exact same_bind (ih (stop - next) (by omega) next rfl) (fun _ _ => same_refl _)
    · rw [scan_done (by omega), scan_done (by omega)]
      exact same_refl _

/-- The converse: a loop whose rounds each read one encoding has read consecutive encodings
up to `stop`, and returns what they decode to. -/
theorem scan_reencoded {stuck : ε} {body : Nat → Except ε (Round α)} {d : Bytes} {stop : Nat}
    {enc : β → Bytes} {dec : β → List α} (hadv : Advances body)
    (hbody : ∀ o s items next, At d o s → o < stop → body o = .ok (items, next) →
      ∃ b o' s', items = dec b ∧ next = some o' ∧ s = enc b ++ s' ∧ At d o' s' ∧ o' ≤ stop) :
    ∀ (offset : Nat) (s : Bytes) (items : List α), At d offset s → offset ≤ stop →
      scan stuck body stop offset = .ok items →
      ∃ (bs : List β) (s' : Bytes), items = bs.flatMap dec ∧ s = bs.flatMap enc ++ s' ∧ At d stop s' := by
  intro offset
  induction hn : stop - offset using Nat.strong_induction_on generalizing offset with
  | h n ih =>
    intro s items hat hle h
    by_cases hlt : offset < stop
    · rw [scan_step hadv hlt] at h
      obtain ⟨⟨first, next⟩, hround, h⟩ := bind_ok_iff.mp h
      obtain ⟨b, o', s', rfl, rfl, rfl, hat', hstop⟩ := hbody offset s first next hat hlt hround
      obtain ⟨rest, hrest, h⟩ := bind_ok_iff.mp h
      have hmove := hadv offset _ o' hround
      obtain ⟨bs, s'', rfl, rfl, hend⟩ := ih (stop - o') (by omega) o' rfl s' rest hat' hstop hrest
      cases h
      exact ⟨b :: bs, s'', by rw [List.flatMap_cons], by rw [List.flatMap_cons, List.append_assoc],
        hend⟩
    · have heq : offset = stop := by omega
      rw [scan_done (by omega)] at h
      cases h
      exact ⟨[], s, rfl, rfl, heq ▸ hat⟩

end Pybmpmon.Lib.Scan
