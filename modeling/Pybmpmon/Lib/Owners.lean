import Mathlib.Logic.Function.Basic
import Pybmpmon.Lib.Batching
import Pybmpmon.Lib.Transition

/-!
# Operations that each have an owner

A state has a part for each owner. An operation looks at the part of its owner and changes
no other, so a part is what its owner's operations make of it, however those of different
owners are interleaved. A task is operations of one owner one after the other; a task that
fails is abandoned where it is.
-/
namespace Pybmpmon.Lib.Owners

open Pybmpmon.Lib.Batching Pybmpmon.Lib.Transition

variable {κ σ ω ν τ : Type}

/-- Of what each task gives, all of it the task's owner's, the part of one owner is what that owner's
tasks give. -/
theorem filter_flatMap [DecidableEq κ] {give : τ → List ω} {owner : ω → κ} {taskOwner : τ → κ}
    (h : ∀ task, ∀ x ∈ give task, owner x = taskOwner task) (k : κ) (tasks : List τ) :
    (tasks.flatMap give).filter (fun x => owner x = k) =
      (tasks.filter fun task => taskOwner task = k).flatMap give := by
  induction tasks with
  | nil => rfl
  | cons task tasks ih =>
    rw [List.flatMap_cons, List.filter_append, ih]
    by_cases htask : taskOwner task = k
    · rw [List.filter_cons_of_pos (by simpa using htask), List.flatMap_cons,
        List.filter_eq_self.mpr fun x hx => by simpa using (h task x hx).trans htask]
    · rw [List.filter_cons_of_neg (by simpa using htask),
        List.filter_eq_nil_iff.mpr fun x hx => by simpa [h task x hx] using htask, List.nil_append]

structure Parts (κ σ ω ν : Type) where
  owner : ω → κ
  act : ω → σ → σ
  part : κ → σ → ν
  own : ∀ (op : ω) {s s' : σ}, part (owner op) s = part (owner op) s' →
    part (owner op) (act op s) = part (owner op) (act op s')
  others : ∀ (op : ω) {k : κ} (s : σ), owner op ≠ k → part k (act op s) = part k s

namespace Parts

variable {p : Parts κ σ ω ν} {k : κ}

def acts (p : Parts κ σ ω ν) (ops : List ω) (s : σ) : σ := ops.foldl (fun s op => p.act op s) s

theorem acts_append (a b : List ω) (s : σ) : p.acts (a ++ b) s = p.acts b (p.acts a s) :=
  List.foldl_append ..

/-- What becomes of a part depends on the part. -/
theorem part_act [DecidableEq κ] (op : ω) {s s' : σ} (h : p.part k s = p.part k s') :
    p.part k (p.act op s) = p.part k (p.act op s') := by
  by_cases hop : p.owner op = k
  · subst hop
    exact p.own op h
  · rw [p.others op s hop, p.others op s' hop, h]

theorem part_acts [DecidableEq κ] (ops : List ω) {s s' : σ} (h : p.part k s = p.part k s') :
    p.part k (p.acts ops s) = p.part k (p.acts ops s') := by
  induction ops generalizing s s' with
  | nil => exact h
  | cons op ops ih => exact ih (part_act op h)

/-- A part is what its owner's operations make of it. -/
theorem part_filter [DecidableEq κ] (ops : List ω) (s : σ) :
    p.part k (p.acts ops s) = p.part k (p.acts (ops.filter fun op => p.owner op = k) s) := by
  induction ops generalizing s with
  | nil => rfl
  | cons op ops ih =>
    by_cases hop : p.owner op = k
    · rw [List.filter_cons_of_pos (by simpa using hop)]
      exact ih _
    · rw [List.filter_cons_of_neg (by simpa using hop)]
      exact (ih _).trans (part_acts _ (p.others op s hop))

end Parts

/-! ## Tasks -/

structure Tasks (κ σ ω ν τ : Type) extends Parts κ σ ω ν where
  taskOwner : τ → κ
  ops : τ → List ω
  owned : ∀ {task : τ} {op : ω}, op ∈ ops task → owner op = taskOwner task

/-- What each owner has still to do, the tasks in the order they were started, and how many of each
owner's have failed. -/
structure State (κ σ ω τ : Type) where
  state : σ
  pending : κ → List ω
  started : List τ
  failed : κ → Nat

def State.new (s : σ) : State κ σ ω τ := ⟨s, fun _ => [], [], fun _ => 0⟩

inductive Label (κ τ : Type) where
  | start (task : τ)
  | next (k : κ)
  | fail (k : κ)

namespace Tasks

variable [DecidableEq κ] {p : Tasks κ σ ω ν τ}

/-- An owner starts its next task when it has done with the one before. -/
def step (p : Tasks κ σ ω ν τ) (t : State κ σ ω τ) : Label κ τ → Option (State κ σ ω τ)
  | .start task =>
      if (t.pending (p.taskOwner task)).isEmpty then
        some { t with
          pending := Function.update t.pending (p.taskOwner task) (p.ops task)
          started := t.started ++ [task] }
      else none
  | .next k =>
      match t.pending k with
      | [] => none
      | op :: ops => some { t with
          state := p.act op t.state
          pending := Function.update t.pending k ops }
  | .fail k =>
      match t.pending k with
      | [] => none
      | _ :: _ => some { t with
          pending := Function.update t.pending k []
          failed := Function.update t.failed k (t.failed k + 1) }

/-- The tasks of an owner, each as the operations it consists of. -/
def tasksOf (p : Tasks κ σ ω ν τ) (k : κ) (tasks : List τ) : List (List ω) :=
  (tasks.filter fun task => p.taskOwner task = k).map p.ops

theorem tasksOf_concat (k : κ) (tasks : List τ) (task : τ) :
    p.tasksOf k (tasks ++ [task]) =
      p.tasksOf k tasks ++ if p.taskOwner task = k then [p.ops task] else [] := by
  rw [tasksOf, List.filter_append, List.map_append, ← tasksOf, List.filter_singleton]
  by_cases h : p.taskOwner task = k
  · simp [h]
  · simp [h]

end Tasks

/-! ## What has been done -/

/-- All of each task has been done, except of at most `n`. -/
structure Idle (n : Nat) (parts tasks : List (List ω)) : Prop where
  starts : List.Forall₂ (fun part task => part <+: task) parts tasks
  cuts : cut parts tasks ≤ n

theorem Idle.concat {n : Nat} {parts tasks : List (List ω)} (h : Idle n parts tasks) (done rest : List ω) :
    Idle (n + if rest.isEmpty then 0 else 1) (parts ++ [done]) (tasks ++ [done ++ rest]) := by
  refine ⟨List.rel_append h.starts (.cons (List.prefix_append _ _) .nil), ?_⟩
  rw [cut_concat h.starts.length_eq, List.length_append]
  refine Nat.add_le_add h.cuts ?_
  cases rest with
  | nil => simp
  | cons op ops => simp

/-- The last task is at work, or there is none. -/
inductive Progress (pending : List ω) (n : Nat) : List (List ω) → List (List ω) → Prop where
  | idle {parts tasks : List (List ω)} : pending = [] → Idle n parts tasks → Progress pending n parts tasks
  | busy {parts tasks : List (List ω)} (done : List ω) :
      Idle n parts tasks → Progress pending n (parts ++ [done]) (tasks ++ [done ++ pending])

namespace Progress

variable {pending : List ω} {n : Nat} {parts tasks : List (List ω)}

theorem stopped (h : Progress pending n parts tasks) :
    Idle (n + if pending.isEmpty then 0 else 1) parts tasks := by
  cases h with
  | idle hnone h =>
    subst hnone
    exact h
  | busy done h => exact h.concat done pending

theorem started (h : Progress [] n parts tasks) (ops : List ω) :
    Progress ops n (parts ++ [[]]) (tasks ++ [ops]) := .busy [] h.stopped

theorem next {op : ω} {ops : List ω} (h : Progress (op :: ops) n parts tasks) :
    ∃ parts', Progress ops n parts' tasks ∧ parts'.flatten = parts.flatten ++ [op] := by
  cases h with
  | idle hnone _ => cases hnone
  | @busy parts tasks done h =>
    have hnext : Progress ops n (parts ++ [done ++ [op]]) (tasks ++ [done ++ [op] ++ ops]) := .busy _ h
    rw [List.append_assoc] at hnext
    exact ⟨_, hnext, by simp⟩

theorem failed {op : ω} {ops : List ω} (h : Progress (op :: ops) n parts tasks) :
    Progress [] (n + 1) parts tasks := .idle rfl h.stopped

end Progress

/-! ## Runs -/

namespace Tasks

variable [DecidableEq κ] {p : Tasks κ σ ω ν τ} {s₀ : σ}

/-- The part of an owner is what has been done of its tasks, one after the other, makes of it. -/
structure Follows (p : Tasks κ σ ω ν τ) (s₀ : σ) (k : κ) (t : State κ σ ω τ) : Prop where
  owned : ∀ op ∈ t.pending k, p.owner op = k
  done : ∃ parts, Progress (t.pending k) (t.failed k) parts (p.tasksOf k t.started) ∧
    p.part k t.state = p.part k (p.acts parts.flatten s₀)

theorem follows_new (k : κ) : Follows p s₀ k (.new s₀) :=
  ⟨fun _ h => absurd h List.not_mem_nil, [], .idle rfl ⟨.nil, Nat.le_refl 0⟩, rfl⟩

/-- What is done for another owner. -/
theorem Follows.same {k : κ} {t t' : State κ σ ω τ} (h : Follows p s₀ k t)
    (hpending : t'.pending k = t.pending k) (hfailed : t'.failed k = t.failed k)
    (hstarted : p.tasksOf k t'.started = p.tasksOf k t.started)
    (hpart : p.part k t'.state = p.part k t.state) : Follows p s₀ k t' := by
  obtain ⟨howned, parts, hprogress, hdone⟩ := h
  refine ⟨by rw [hpending]; exact howned, parts, ?_, hpart.trans hdone⟩
  rw [hpending, hfailed, hstarted]
  exact hprogress

theorem follows_start {task : τ} {t t' : State κ σ ω τ} (hstep : p.step t (.start task) = some t') {k : κ}
    (h : Follows p s₀ k t) : Follows p s₀ k t' := by
  rw [step] at hstep
  split at hstep
  case isFalse => cases hstep
  case isTrue hempty =>
    cases hstep
    by_cases htask : p.taskOwner task = k
    · subst htask
      obtain ⟨_, parts, hprogress, hpart⟩ := h
      rw [List.isEmpty_iff.mp hempty] at hprogress
      refine ⟨?_, parts ++ [[]], ?_, ?_⟩
      · simp only [Function.update_self]
        exact fun op hop => p.owned hop
      · simp only [Function.update_self, tasksOf_concat, if_true]
        exact hprogress.started (p.ops task)
      · simpa using hpart
    · refine h.same (Function.update_of_ne (Ne.symm htask) ..) rfl ?_ rfl
      rw [tasksOf_concat, if_neg htask, List.append_nil]

theorem follows_next {j : κ} {t t' : State κ σ ω τ} (hstep : p.step t (.next j) = some t')
    (howned : ∀ op ∈ t.pending j, p.owner op = j) {k : κ} (h : Follows p s₀ k t) : Follows p s₀ k t' := by
  rw [step] at hstep
  split at hstep
  case h_1 => cases hstep
  case h_2 op ops hpending =>
    cases hstep
    have hop : p.owner op = j := howned op (by rw [hpending]; exact List.mem_cons_self)
    by_cases hj : j = k
    · subst hj
      obtain ⟨howned, parts, hprogress, hpart⟩ := h
      rw [hpending] at howned hprogress
      obtain ⟨parts', hnext, hflatten⟩ := hprogress.next
      refine ⟨?_, parts', ?_, ?_⟩
      · simp only [Function.update_self]
        exact fun x hx => howned x (List.mem_cons_of_mem op hx)
      · simp only [Function.update_self]
        exact hnext
      · rw [hflatten, Parts.acts_append]
        exact Parts.part_act op hpart
    · exact h.same (Function.update_of_ne (Ne.symm hj) ..) rfl rfl (p.others op t.state (by rw [hop]; exact hj))

theorem follows_fail {j : κ} {t t' : State κ σ ω τ} (hstep : p.step t (.fail j) = some t') {k : κ}
    (h : Follows p s₀ k t) : Follows p s₀ k t' := by
  rw [step] at hstep
  split at hstep
  case h_1 => cases hstep
  case h_2 op ops hpending =>
    cases hstep
    by_cases hj : j = k
    · subst hj
      obtain ⟨_, parts, hprogress, hpart⟩ := h
      rw [hpending] at hprogress
      refine ⟨?_, parts, ?_, hpart⟩
      · simp only [Function.update_self]
        exact fun x hx => absurd hx List.not_mem_nil
      · simp only [Function.update_self]
        exact hprogress.failed
    · exact h.same (Function.update_of_ne (Ne.symm hj) ..) (Function.update_of_ne (Ne.symm hj) ..) rfl rfl

theorem follows_step {t t' : State κ σ ω τ} {a : Label κ τ} (hstep : p.step t a = some t')
    (h : ∀ k, Follows p s₀ k t) (k : κ) : Follows p s₀ k t' := by
  cases a with
  | start task => exact follows_start hstep (h k)
  | next j => exact follows_next hstep (h j).owned (h k)
  | fail j => exact follows_fail hstep (h k)

theorem follows_run {labels : List (Label κ τ)} {t : State κ σ ω τ}
    (hrun : run p.step (.new s₀) labels = some t) (k : κ) : Follows p s₀ k t := by
  have hany : Throughout p.step (fun _ _ => True) (.new s₀) labels :=
    throughout_of_always (fun _ _ => trivial) labels _
  exact run_keeps (p := fun t => ∀ k, Follows p s₀ k t) (fun _ _ _ _ hstep h => follows_step hstep h) hany hrun
    follows_new k

/-- However the tasks are interleaved: each owner's part is what its tasks make of it, one after the other,
each as far as it was done. -/
theorem interleaved {labels : List (Label κ τ)} {t : State κ σ ω τ}
    (hrun : run p.step (.new s₀) labels = some t) (k : κ) :
    ∃ parts, Idle (t.failed k + if (t.pending k).isEmpty then 0 else 1) parts (p.tasksOf k t.started) ∧
      p.part k t.state = p.part k (p.acts parts.flatten s₀) := by
  obtain ⟨_, parts, hprogress, hpart⟩ := follows_run hrun k
  exact ⟨parts, hprogress.stopped, hpart⟩

/-- The tasks one after the other, each whole. -/
def serial (p : Tasks κ σ ω ν τ) (tasks : List τ) (s : σ) : σ :=
  tasks.foldl (fun s task => p.acts (p.ops task) s) s

omit [DecidableEq κ] in
theorem serial_eq (tasks : List τ) (s : σ) : p.serial tasks s = p.acts (tasks.flatMap p.ops) s := by
  induction tasks generalizing s with
  | nil => rfl
  | cons task tasks ih =>
    rw [List.flatMap_cons, Parts.acts_append, ← ih]
    rfl

theorem serial_filter (k : κ) (tasks : List τ) (s : σ) :
    p.part k (p.serial tasks s) = p.part k (p.serial (tasks.filter fun task => p.taskOwner task = k) s) := by
  rw [serial_eq, serial_eq, Parts.part_filter, filter_flatMap (fun _ _ => p.owned)]

/-- An owner with no failed task and nothing left to do. -/
theorem interleaved_serial {labels : List (Label κ τ)} {t : State κ σ ω τ}
    (hrun : run p.step (.new s₀) labels = some t) {k : κ} (hfailed : t.failed k = 0)
    (hpending : t.pending k = []) : p.part k t.state = p.part k (p.serial t.started s₀) := by
  obtain ⟨parts, hidle, hpart⟩ := interleaved hrun k
  rw [hfailed, hpending, List.isEmpty_nil, if_pos rfl] at hidle
  rw [hpart, eq_of_cut hidle.starts (Nat.le_zero.mp hidle.cuts), serial_filter, serial_eq, List.flatMap_def]
  rfl

end Tasks

end Pybmpmon.Lib.Owners
