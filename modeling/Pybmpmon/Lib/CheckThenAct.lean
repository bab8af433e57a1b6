import Pybmpmon.Lib.Outcome
import Pybmpmon.Lib.Transition

/-!
# Two transactions that check and then act

A transaction reads a value of the committed state, writes by what it has read, and
commits. Its write starts from what is committed when it is made, not when the value
was read, and waits while the other transaction has an uncommitted write that conflicts
with it. Two transactions are serialisable when every order of their steps leaves what
running them one after the other leaves. They are when neither can change what the other
reads; a value read before the other's write shows whether they are not.
-/
namespace Pybmpmon.Lib.CheckThenAct

open Pybmpmon.Lib.Outcome Pybmpmon.Lib.Transition

variable {σ ρ ε : Type}

structure Transaction (σ ρ ε : Type) where
  read : σ → ρ
  act : ρ → σ → Except ε σ

/-- The transaction with nothing beside it. -/
def Transaction.alone (t : Transaction σ ρ ε) (s : σ) : Except ε σ := t.act (t.read s) s

def inOrder (first second : Transaction σ ρ ε) (s : σ) : Except ε σ := first.alone s >>= second.alone

inductive Phase (ρ ε : Type) where
  | started
  | hasRead (value : ρ)
  | written (value : ρ)
  | committed
  | failed (e : ε)
  deriving DecidableEq

namespace Phase

def isWritten : Phase ρ ε → Bool
  | .written _ => true
  | _ => false

def ended : Phase ρ ε → Bool
  | .committed | .failed _ => true
  | _ => false

end Phase

inductive Action where
  | read
  | write
  | commit
  deriving DecidableEq

/-- What an action of one transaction does. A write that is made is seen by nobody until it is
committed, and a write that fails ends the transaction. -/
def advance (t : Transaction σ ρ ε) (blocked : Bool) (s : σ) :
    Phase ρ ε → Action → Option (σ × Phase ρ ε)
  | .started, .read => some (s, .hasRead (t.read s))
  | .hasRead v, .write =>
      if blocked then none
      else match t.act v s with
        | .ok _ => some (s, .written v)
        | .error e => some (s, .failed e)
  | .written v, .commit =>
      match t.act v s with
      | .ok s' => some (s', .committed)
      | .error e => some (s, .failed e)
  | _, _ => none

/-- The two transactions, and whether their writes conflict. -/
structure Race (σ ρ ε : Type) where
  left : Transaction σ ρ ε
  right : Transaction σ ρ ε
  conflicting : Bool

/-- What is committed, and how far each transaction is. -/
structure Progress (σ ρ ε : Type) where
  shared : σ
  left : Phase ρ ε
  right : Phase ρ ε

inductive Side where
  | left
  | right
  deriving DecidableEq

def Race.step (r : Race σ ρ ε) (p : Progress σ ρ ε) : Side × Action → Option (Progress σ ρ ε)
  | (.left, a) =>
      (advance r.left (r.conflicting && p.right.isWritten) p.shared p.left a).map
        fun (s, phase) => ⟨s, phase, p.right⟩
  | (.right, a) =>
      (advance r.right (r.conflicting && p.left.isWritten) p.shared p.right a).map
        fun (s, phase) => ⟨s, p.left, phase⟩

def Progress.start (s : σ) : Progress σ ρ ε := ⟨s, .started, .started⟩

/-- However the steps come, neither transaction fails and the state is that of some order. -/
def Serialisable (r : Race σ ρ ε) (s : σ) : Prop :=
  ∀ labels p, run r.step (.start s) labels = some p → p.left.ended = true → p.right.ended = true →
    p.left = .committed ∧ p.right = .committed ∧
      (inOrder r.left r.right s = .ok p.shared ∨ inOrder r.right r.left s = .ok p.shared)

/-! ## Transactions whose reads are steady -/

/-- On good states the transaction always reads `v`, succeeds and leaves a good state. -/
structure Steady (good : σ → Prop) (t : Transaction σ ρ ε) (v : ρ) : Prop where
  read : ∀ s, good s → t.read s = v
  act : ∀ s, good s → ∃ s', t.act v s = .ok s' ∧ good s'

theorem Steady.alone {good : σ → Prop} {t : Transaction σ ρ ε} {v : ρ} (h : Steady good t v) {s : σ}
    (hs : good s) : t.alone s = t.act v s := by
  rw [Transaction.alone, h.read s hs]

/-- What is committed after which transactions, by the values they act on. -/
inductive Came (left right : σ → Except ε σ) (s : σ) : Bool → Bool → σ → Prop where
  | none : Came left right s false false s
  | left {b : Bool} {m m' : σ} : Came left right s false b m → left m = .ok m' →
      Came left right s true b m'
  | right {b : Bool} {m m' : σ} : Came left right s b false m → right m = .ok m' →
      Came left right s b true m'

def Phase.isCommitted : Phase ρ ε → Bool
  | .committed => true
  | _ => false

/-- A transaction that has not failed and has read nothing but `v`. -/
def Phase.OnTrack (v : ρ) : Phase ρ ε → Prop
  | .started => True
  | .hasRead w => w = v
  | .written w => w = v
  | .committed => True
  | .failed _ => False

structure Follows (good : σ → Prop) (r : Race σ ρ ε) (vl vr : ρ) (s : σ) (p : Progress σ ρ ε) :
    Prop where
  good : good p.shared
  left : p.left.OnTrack vl
  right : p.right.OnTrack vr
  came : Came (r.left.act vl) (r.right.act vr) s p.left.isCommitted p.right.isCommitted p.shared

/-- One action of a steady transaction: the state stays, or it is what the transaction commits. -/
theorem advance_steady {good : σ → Prop} {t : Transaction σ ρ ε} {v : ρ} (ht : Steady good t v)
    {blocked : Bool} {s s' : σ} {phase phase' : Phase ρ ε} {a : Action} (hs : good s)
    (hphase : phase.OnTrack v) (h : advance t blocked s phase a = some (s', phase')) :
    phase'.OnTrack v ∧ phase.isCommitted = false ∧
      (s' = s ∧ phase'.isCommitted = false ∨
        good s' ∧ t.act v s = .ok s' ∧ phase'.isCommitted = true) := by
  obtain ⟨next, hact, hnext⟩ := ht.act s hs
  cases phase with
  | started =>
    cases a with
    | read =>
      cases h
      exact ⟨ht.read s hs, rfl, .inl ⟨rfl, rfl⟩⟩
    | write => cases h
    | commit => cases h
  | hasRead w =>
    have hw : w = v := hphase
    subst hw
    cases a with
    | read => cases h
    | write =>
      rw [advance, hact] at h
      split at h
      · cases h
      · cases h
        exact ⟨rfl, rfl, .inl ⟨rfl, rfl⟩⟩
    | commit => cases h
  | written w =>
    have hw : w = v := hphase
    subst hw
    cases a with
    | read => cases h
    | write => cases h
    | commit =>
      rw [advance, hact] at h
      cases h
      exact ⟨trivial, rfl, .inr ⟨hnext, hact, rfl⟩⟩
  | committed => cases a <;> cases h
  | failed e => exact absurd hphase id

theorem follows_step {good : σ → Prop} {r : Race σ ρ ε} {vl vr : ρ} {s : σ}
    (hl : Steady good r.left vl) (hr : Steady good r.right vr) (p : Progress σ ρ ε)
    (a : Side × Action) (p' : Progress σ ρ ε) (h : r.step p a = some p')
    (hp : Follows good r vl vr s p) : Follows good r vl vr s p' := by
  obtain ⟨side, a⟩ := a
  cases side with
  | left =>
    obtain ⟨⟨s', phase⟩, hadvance, rfl⟩ := Option.map_eq_some_iff.mp h
    obtain ⟨htrack, hbefore, hcase⟩ := advance_steady hl hp.good hp.left hadvance
    have hcame := hp.came
    rw [hbefore] at hcame
    rcases hcase with ⟨rfl, hafter⟩ | ⟨hgood, hact, hafter⟩
    · exact ⟨hp.good, htrack, hp.right, by rw [hafter]; exact hcame⟩
    · exact ⟨hgood, htrack, hp.right, by rw [hafter]; exact hcame.left hact⟩
  | right =>
    obtain ⟨⟨s', phase⟩, hadvance, rfl⟩ := Option.map_eq_some_iff.mp h
    obtain ⟨htrack, hbefore, hcase⟩ := advance_steady hr hp.good hp.right hadvance
    have hcame := hp.came
    rw [hbefore] at hcame
    rcases hcase with ⟨rfl, hafter⟩ | ⟨hgood, hact, hafter⟩
    · exact ⟨hp.good, hp.left, htrack, by rw [hafter]; exact hcame⟩
    · exact ⟨hgood, hp.left, htrack, by rw [hafter]; exact hcame.right hact⟩

theorem committed_of_ended {v : ρ} {phase : Phase ρ ε} (htrack : phase.OnTrack v)
    (hended : phase.ended = true) : phase = .committed := by
  cases phase with
  | committed => rfl
  | failed e => exact absurd htrack id
  | _ => cases hended

/-- Two steady transactions that both came are one after the other. -/
theorem inOrder_of_came {good : σ → Prop} {l r : Transaction σ ρ ε} {vl vr : ρ} {s s' : σ}
    (hl : Steady good l vl) (hr : Steady good r vr) (hs : good s)
    (h : Came (l.act vl) (r.act vr) s true true s') :
    inOrder l r s = .ok s' ∨ inOrder r l s = .ok s' := by
  cases h with
  | left hbefore hlast =>
    cases hbefore with
    | right hnone hfirst =>
      cases hnone
      obtain ⟨m, hm, hgood⟩ := hr.act s hs
      rw [hfirst] at hm
      cases hm
      right
      rw [inOrder, hr.alone hs, hfirst, ok_bind, hl.alone hgood]
      exact hlast
  | right hbefore hlast =>
    cases hbefore with
    | left hnone hfirst =>
      cases hnone
      obtain ⟨m, hm, hgood⟩ := hl.act s hs
      rw [hfirst] at hm
      cases hm
      left
      rw [inOrder, hl.alone hs, hfirst, ok_bind, hr.alone hgood]
      exact hlast

/-- Transactions whose reads no write changes are serialisable. -/
theorem serialisable_of_steady {good : σ → Prop} {r : Race σ ρ ε} {vl vr : ρ} {s : σ}
    (hl : Steady good r.left vl) (hr : Steady good r.right vr) (hs : good s) : Serialisable r s := by
  intro labels p hrun hleft hright
  have hstart : Follows good r vl vr s (.start s) := ⟨hs, trivial, trivial, .none⟩
  have hfollows : Follows good r vl vr s p :=
    run_keeps (fun p a p' _ hstep hp => follows_step hl hr p a p' hstep hp)
      (throughout_of_forall (fun _ _ => trivial) _) hrun hstart
  have hcl := committed_of_ended hfollows.left hleft
  have hcr := committed_of_ended hfollows.right hright
  have hcame := hfollows.came
  rw [hcl, hcr] at hcame
  exact ⟨hcl, hcr, inOrder_of_came hl hr hs hcame⟩

/-! ## Transactions that act on what they read before -/

def Side.other : Side → Side
  | .left => .right
  | .right => .left

def Race.swap (r : Race σ ρ ε) : Race σ ρ ε := ⟨r.right, r.left, r.conflicting⟩

def Progress.swap (p : Progress σ ρ ε) : Progress σ ρ ε := ⟨p.shared, p.right, p.left⟩

theorem step_swap (r : Race σ ρ ε) (p : Progress σ ρ ε) (side : Side) (a : Action) :
    r.swap.step p.swap (side.other, a) = (r.step p (side, a)).map Progress.swap := by
  cases side with
  | left =>
    rw [Race.step, Option.map_map]
    rfl
  | right =>
    rw [Race.step, Option.map_map]
    rfl

theorem run_swap (r : Race σ ρ ε) (labels : List (Side × Action)) (p : Progress σ ρ ε) :
    run r.swap.step p.swap (labels.map fun (side, a) => (side.other, a)) =
      (run r.step p labels).map Progress.swap := by
  induction labels generalizing p with
  | nil => rfl
  | cons label labels ih =>
    obtain ⟨side, a⟩ := label
    rw [List.map_cons, run, run, step_swap]
    cases r.step p (side, a) with
    | none => rfl
    | some p' => exact ih p'

theorem serialisable_swap {r : Race σ ρ ε} {s : σ} (h : Serialisable r s) : Serialisable r.swap s := by
  intro labels p hrun hleft hright
  have hmirror := run_swap r.swap labels (.start s)
  rw [hrun] at hmirror
  obtain ⟨hcr, hcl, horder⟩ := h _ _ hmirror hright hleft
  exact ⟨hcl, hcr, horder.symm⟩

/-- When both have read before either writes, both act on what was there then. -/
theorem stale_of_serialisable {r : Race σ ρ ε} {s : σ} (h : Serialisable r s) :
    ∃ m s', r.left.act (r.left.read s) s = .ok m ∧ r.right.act (r.right.read s) m = .ok s' ∧
      (inOrder r.left r.right s = .ok s' ∨ inOrder r.right r.left s = .ok s') := by
  cases hleft : r.left.act (r.left.read s) s with
  | error e =>
    cases hright : r.right.act (r.right.read s) s with
    | error e' =>
      have hfailed := h [(.left, .read), (.right, .read), (.left, .write), (.right, .write)]
        ⟨s, .failed e, .failed e'⟩
        (by simp [run, Race.step, advance, Progress.start, Phase.isWritten, hleft, hright]) rfl rfl
      cases hfailed.1
    | ok m =>
      have hfailed := h [(.left, .read), (.right, .read), (.left, .write), (.right, .write),
        (.right, .commit)] ⟨m, .failed e, .committed⟩
        (by simp [run, Race.step, advance, Progress.start, Phase.isWritten, hleft, hright]) rfl rfl
      cases hfailed.1
  | ok m =>
    cases hright : r.right.act (r.right.read s) m with
    | error e' =>
      have hfailed := h [(.left, .read), (.right, .read), (.left, .write), (.left, .commit),
        (.right, .write)] ⟨m, .committed, .failed e'⟩
        (by simp [run, Race.step, advance, Progress.start, Phase.isWritten, hleft, hright]) rfl rfl
      cases hfailed.2.1
    | ok s' =>
      have hdone := h [(.left, .read), (.right, .read), (.left, .write), (.left, .commit),
        (.right, .write), (.right, .commit)] ⟨s', .committed, .committed⟩
        (by simp [run, Race.step, advance, Progress.start, Phase.isWritten, hleft, hright]) rfl rfl
      exact ⟨m, s', rfl, hright, hdone.2.2⟩

end Pybmpmon.Lib.CheckThenAct
