import Mathlib.Logic.Basic

/-!
# Loops that stop

A loop is a step that gives the next state or stops. When every round makes a size
smaller, the size bounds the rounds and the loop has a last state, which is where
the step stops.
-/
namespace Pybmpmon.Lib.Loop

variable {σ : Type}

/-- At most `n` rounds. -/
def rounds (step : σ → Option σ) : Nat → σ → σ
  | 0, s => s
  | n + 1, s =>
      match step s with
      | none => s
      | some s' => rounds step n s'

/-- Every round makes the size smaller. -/
def Shrinks (step : σ → Option σ) (size : σ → Nat) : Prop :=
  ∀ s s', step s = some s' → size s' < size s

/-- The state in which the loop stops. -/
def settled (step : σ → Option σ) (size : σ → Nat) (s : σ) : σ := rounds step (size s) s

variable {step : σ → Option σ} {size : σ → Nat}

theorem rounds_stop {s : σ} (hs : step s = none) (n : Nat) : rounds step n s = s := by
  cases n with
  | zero => rfl
  | succ n => rw [rounds, hs]

theorem rounds_step {s s' : σ} (hs : step s = some s') (n : Nat) :
    rounds step (n + 1) s = rounds step n s' := by rw [rounds, hs]

theorem step_none_of_size_zero (h : Shrinks step size) {s : σ} (hs : size s = 0) :
    step s = none := by
  cases hstep : step s with
  | none => rfl
  | some s' =>
    have hlt := h s s' hstep
    omega

/-- Rounds beyond the size change nothing. -/
theorem rounds_eq (h : Shrinks step size) {n m : Nat} {s : σ} (hn : size s ≤ n) (hm : size s ≤ m) :
    rounds step n s = rounds step m s := by
  induction n generalizing m s with
  | zero =>
    have hs := step_none_of_size_zero h (Nat.le_zero.mp hn)
    rw [rounds_stop hs, rounds_stop hs]
  | succ n ih =>
    cases hs : step s with
    | none => rw [rounds_stop hs, rounds_stop hs]
    | some s' =>
      have hlt := h s s' hs
      obtain ⟨k, rfl⟩ : ∃ k, m = k + 1 := ⟨m - 1, by omega⟩
      rw [rounds_step hs, rounds_step hs]
      exact ih (by omega) (by omega)

theorem settled_stop {s : σ} (hs : step s = none) : settled step size s = s := rounds_stop hs _

theorem settled_step (h : Shrinks step size) {s s' : σ} (hs : step s = some s') :
    settled step size s = settled step size s' := by
  have hlt := h s s' hs
  obtain ⟨k, hk⟩ : ∃ k, size s = k + 1 := ⟨size s - 1, by omega⟩
  rw [settled, hk, rounds_step hs]
  exact rounds_eq h (by omega) (Nat.le_refl _)

/-- What every round keeps, the loop keeps. -/
theorem settled_keeps {p : σ → Prop} (hstep : ∀ s s', step s = some s' → p s → p s') {s : σ}
    (hs : p s) : p (settled step size s) := by
  rw [settled]
  generalize size s = n
  induction n generalizing s with
  | zero => exact hs
  | succ n ih =>
    cases hnext : step s with
    | none =>
      rw [rounds_stop hnext]
      exact hs
    | some s' =>
      rw [rounds_step hnext]
      exact ih (hstep s s' hnext hs)

/-- The loop ends where the step stops. -/
theorem step_settled (h : Shrinks step size) (s : σ) : step (settled step size s) = none := by
  generalize hn : size s = n
  induction n using Nat.strongRecOn generalizing s with
  | ind n ih =>
    cases hs : step s with
    | none =>
      rw [settled_stop hs]
      exact hs
    | some s' =>
      rw [settled_step h hs]
      exact ih (size s') (hn ▸ h s s' hs) s' rfl

end Pybmpmon.Lib.Loop
