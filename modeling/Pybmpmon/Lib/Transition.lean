import Mathlib.Data.List.Basic
import Mathlib.Data.List.TakeDrop
import Mathlib.Tactic.Tauto

/-!
# Runs of labelled steps, and processes that take turns

A step function says what a label does to a state, or that it is not enabled there. A
property kept by every step whose label meets a condition in the state before it is
kept by every run whose steps all meet it. In a system of processes over a shared
state a label names the process that goes on until it is suspended again or ends.
-/
namespace Pybmpmon.Lib.Transition

/-! ## Runs -/

section Runs

variable {σ lbl : Type}

def run (step : σ → lbl → Option σ) : σ → List lbl → Option σ
  | s, [] => some s
  | s, a :: labels => (step s a).bind fun s' => run step s' labels

/-- Every step of the run meets the condition in the state before it. -/
def Throughout (step : σ → lbl → Option σ) (ok : σ → lbl → Prop) : σ → List lbl → Prop
  | _, [] => True
  | s, a :: labels => ok s a ∧ ∀ s' ∈ step s a, Throughout step ok s' labels

instance decidableThroughout (step : σ → lbl → Option σ) (ok : σ → lbl → Prop)
    [∀ s a, Decidable (ok s a)] : (s : σ) → (labels : List lbl) →
      Decidable (Throughout step ok s labels)
  | _, [] => inferInstanceAs (Decidable True)
  | s, a :: labels =>
      have : DecidablePred fun s' => Throughout step ok s' labels :=
        fun s' => decidableThroughout step ok s' labels
      inferInstanceAs (Decidable (ok s a ∧ ∀ s' ∈ step s a, Throughout step ok s' labels))

def Reachable (step : σ → lbl → Option σ) (initial : σ) (allowed : lbl → Prop) (s : σ) : Prop :=
  ∃ labels, (∀ a ∈ labels, allowed a) ∧ run step initial labels = some s

variable {step : σ → lbl → Option σ}

theorem run_cons_some {s s' : σ} {a : lbl} {labels : List lbl} :
    run step s (a :: labels) = some s' ↔ ∃ t, step s a = some t ∧ run step t labels = some s' := by
  rw [run, Option.bind_eq_some_iff]

theorem run_cons_of {s t : σ} {a : lbl} (h : step s a = some t) (labels : List lbl) :
    run step s (a :: labels) = run step t labels := by
  rw [run, h, Option.bind_some]

theorem run_append (s : σ) (a b : List lbl) :
    run step s (a ++ b) = (run step s a).bind fun t => run step t b := by
  induction a generalizing s with
  | nil => rfl
  | cons x a ih =>
    rw [List.cons_append, run, run]
    cases step s x with
    | none => rfl
    | some t => exact ih t

/-- What steps that meet the condition keep, runs of them keep. -/
theorem run_keeps {p : σ → Prop} {ok : σ → lbl → Prop}
    (hstep : ∀ s a s', ok s a → step s a = some s' → p s → p s') {labels : List lbl} {s s' : σ}
    (hok : Throughout step ok s labels) (hrun : run step s labels = some s') (hs : p s) : p s' := by
  induction labels generalizing s with
  | nil =>
    cases hrun
    exact hs
  | cons a labels ih =>
    obtain ⟨t, hta, hrun⟩ := run_cons_some.mp hrun
    exact ih (hok.2 t hta) hrun (hstep s a t hok.1 hta hs)

theorem throughout_of_forall {allowed : lbl → Prop} {labels : List lbl}
    (h : ∀ a ∈ labels, allowed a) (s : σ) : Throughout step (fun _ a => allowed a) s labels := by
  induction labels generalizing s with
  | nil => trivial
  | cons a labels ih =>
    exact ⟨h a List.mem_cons_self, fun t _ => ih (fun b hb => h b (List.mem_cons_of_mem _ hb)) t⟩

theorem throughout_of_always {ok : σ → lbl → Prop} (h : ∀ s a, ok s a) (labels : List lbl) (s : σ) :
    Throughout step ok s labels := by
  induction labels generalizing s with
  | nil => trivial
  | cons a labels ih => exact ⟨h s a, fun t _ => ih t⟩

/-- Two conditions that agree where an invariant holds, which the steps that meet them keep, agree
on runs. -/
theorem throughout_iff {p : σ → Prop} {ok ok' : σ → lbl → Prop}
    (hiff : ∀ s a, p s → (ok s a ↔ ok' s a))
    (hstep : ∀ s a s', ok' s a → step s a = some s' → p s → p s') {s : σ} (hs : p s)
    (labels : List lbl) : Throughout step ok s labels ↔ Throughout step ok' s labels := by
  induction labels generalizing s with
  | nil => exact Iff.rfl
  | cons a labels ih =>
    constructor
    · rintro ⟨hok, hlater⟩
      have hok' := (hiff s a hs).mp hok
      exact ⟨hok', fun t ht => (ih (hstep s a t hok' ht hs)).mp (hlater t ht)⟩
    · rintro ⟨hok', hlater⟩
      exact ⟨(hiff s a hs).mpr hok', fun t ht => (ih (hstep s a t hok' ht hs)).mpr (hlater t ht)⟩

/-- What every allowed step keeps holds of every reachable state. -/
theorem reachable_keeps {p : σ → Prop} {allowed : lbl → Prop} {initial s : σ}
    (hstep : ∀ s a s', allowed a → step s a = some s' → p s → p s') (hinitial : p initial)
    (h : Reachable step initial allowed s) : p s := by
  obtain ⟨labels, hallowed, hrun⟩ := h
  exact run_keeps hstep (throughout_of_forall hallowed initial) hrun hinitial

end Runs

/-! ## Processes over a shared state -/

section Processes

variable {σ π : Type}

structure System (σ π : Type) where
  shared : σ
  suspended : List π
  deriving DecidableEq, Repr

/-- One more process. -/
def System.spawn (p : π) (s : System σ π) : System σ π := ⟨s.shared, s.suspended ++ [p]⟩

/-- The process at position `k` goes on. -/
def System.go (next : σ → π → Option (σ × Option π)) (k : Nat) (s : System σ π) :
    Option (System σ π) :=
  match s.suspended[k]? with
  | none => none
  | some p =>
      match next s.shared p with
      | none => none
      | some (shared, p') =>
          some ⟨shared, s.suspended.take k ++ (p'.toList ++ s.suspended.drop (k + 1))⟩

/-- The process that goes on, and those that do not. -/
theorem go_split {next : σ → π → Option (σ × Option π)} {k : Nat} {s s' : System σ π}
    (h : s.go next k = some s') :
    ∃ before p after shared p', s.suspended = before ++ p :: after ∧ before.length = k ∧
      next s.shared p = some (shared, p') ∧ s' = ⟨shared, before ++ (p'.toList ++ after)⟩ := by
  rw [System.go] at h
  split at h
  · cases h
  · rename_i p hp
    split at h
    · cases h
    · rename_i shared p' hnext
      cases h
      obtain ⟨hlt, hget⟩ := List.getElem?_eq_some_iff.mp hp
      refine ⟨s.suspended.take k, p, s.suspended.drop (k + 1), shared, p', ?_, ?_, hnext, rfl⟩
      · rw [← hget, List.cons_getElem_drop_succ, List.take_append_drop]
      · rw [List.length_take, Nat.min_eq_left (Nat.le_of_lt hlt)]

/-- A process that ends leaves the others where they are. -/
theorem go_ends {next : σ → π → Option (σ × Option π)} {shared : σ → π → σ}
    (hends : ∀ s p, next s p = some (shared s p, none)) (k : Nat) (s : System σ π) :
    s.go next k = (s.suspended[k]?).map fun p => ⟨shared s.shared p, s.suspended.eraseIdx k⟩ := by
  rw [System.go]
  cases s.suspended[k]? with
  | none => rfl
  | some p =>
    simp only [hends, Option.toList_none, List.nil_append, List.eraseIdx_eq_take_drop_succ,
      Option.map_some]

theorem mem_before_after {p q : π} {before after : List π} :
    q ∈ before ++ p :: after ↔ q = p ∨ q ∈ before ++ after := by
  simp only [List.mem_append, List.mem_cons]
  tauto

theorem mem_next {next : Option π} {q : π} {before after : List π} :
    q ∈ before ++ (next.toList ++ after) ↔ q ∈ next ∨ q ∈ before ++ after := by
  simp only [List.mem_append, Option.mem_toList]
  tauto

end Processes

end Pybmpmon.Lib.Transition
