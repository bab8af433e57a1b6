import Pybmpmon.Lib.CheckThenAct

/-!
# Any number of transactions that check and then act

Calls begin at any time and their actions come in any order. The calls that have
committed are logged in the order of their commits. What is known of a value that was
read may be lost when another call commits; where it is kept by the commits that come
while the value is held, it may be used when the reader writes. So an invariant of the
log and the committed state is kept by any order of the actions.
-/
namespace Pybmpmon.Lib.Transactions

open Pybmpmon.Lib.Outcome Pybmpmon.Lib.Transition Pybmpmon.Lib.CheckThenAct

variable {σ ρ ε τ : Type}

/-- What each call does, and which calls write one thing. -/
structure Calls (σ ρ ε τ : Type) where
  transaction : τ → Transaction σ ρ ε
  conflicting : τ → τ → Bool

structure Begun (ρ ε τ : Type) where
  call : τ
  phase : Phase ρ ε

/-- What is committed, the calls that have begun, and those that have committed. -/
structure World (σ ρ ε τ : Type) where
  shared : σ
  begun : List (Begun ρ ε τ)
  log : List τ

def World.start (s : σ) : World σ ρ ε τ := ⟨s, [], []⟩

/-- The calls beside the one at position `k`. -/
def World.others (w : World σ ρ ε τ) (k : Nat) : List (Begun ρ ε τ) :=
  w.begun.take k ++ w.begun.drop (k + 1)

/-- The value a call that has not ended has read. -/
def held : Phase ρ ε → Option ρ
  | .hasRead v | .written v => some v
  | _ => none

inductive Label (τ : Type) where
  | begin (call : τ)
  | act (k : Nat) (action : Action)
  deriving DecidableEq

/-- A write waits for a conflicting write that is not committed. -/
def Calls.blocked (calls : Calls σ ρ ε τ) (call : τ) (others : List (Begun ρ ε τ)) : Bool :=
  others.any fun o => o.phase.isWritten && calls.conflicting call o.call

def Calls.step (calls : Calls σ ρ ε τ) (w : World σ ρ ε τ) : Label τ → Option (World σ ρ ε τ)
  | .begin call => some { w with begun := w.begun ++ [⟨call, .started⟩] }
  | .act k action =>
      match w.begun[k]? with
      | none => none
      | some b =>
          (advance (calls.transaction b.call) (calls.blocked b.call (w.others k)) w.shared b.phase
            action).map fun (s, phase) =>
              ⟨s, w.begun.take k ++ ⟨b.call, phase⟩ :: w.begun.drop (k + 1),
                if phase.isCommitted then w.log ++ [b.call] else w.log⟩

/-- A call commits only while the calls beside it that hold a value are apart from it. -/
def CommitsApart (apart : τ → τ → Prop) (w : World σ ρ ε τ) : Label τ → Prop
  | .act k .commit => ∀ b ∈ w.begun[k]?, ∀ o ∈ w.others k, (held o.phase).isSome = true → apart b.call o.call
  | _ => True

instance (apart : τ → τ → Prop) [DecidableRel apart] (w : World σ ρ ε τ) :
    (a : Label τ) → Decidable (CommitsApart apart w a)
  | .begin _ => inferInstanceAs (Decidable True)
  | .act k .commit => inferInstanceAs (Decidable (∀ b ∈ w.begun[k]?, ∀ o ∈ w.others k,
      (held o.phase).isSome = true → apart b.call o.call))
  | .act _ .read => inferInstanceAs (Decidable True)
  | .act _ .write => inferInstanceAs (Decidable True)

/-- Nothing is asked of the calls beside one that commits. -/
theorem commitsApart_true (w : World σ ρ ε τ) (a : Label τ) : CommitsApart (fun _ _ => True) w a := by
  cases a with
  | begin call => trivial
  | act k action =>
    cases action with
    | commit => exact fun _ _ _ _ _ => trivial
    | read => trivial
    | write => trivial

/-- What an action of one call does: nothing is committed, what it holds it has held before or has
just read, and what it fails with is what its write fails with; or it commits by the value it holds. -/
theorem advance_cases {t : Transaction σ ρ ε} {blocked : Bool} {s s' : σ} {phase phase' : Phase ρ ε}
    {a : Action} (h : advance t blocked s phase a = some (s', phase')) :
    (s' = s ∧ phase'.isCommitted = false ∧
        (∀ v, held phase' = some v → held phase = some v ∨ v = t.read s) ∧
        ∀ e, phase' = .failed e → ∃ v, held phase = some v ∧ t.act v s = .error e) ∨
      a = .commit ∧ phase' = .committed ∧ ∃ v, held phase = some v ∧ t.act v s = .ok s' := by
  cases phase with
  | started =>
    cases a with
    | read =>
      cases h
      exact .inl ⟨rfl, rfl, fun v hv => .inr (Option.some.inj hv).symm, fun e he => by cases he⟩
    | write => cases h
    | commit => cases h
  | hasRead w =>
    cases a with
    | read => cases h
    | write =>
      rw [advance] at h
      split at h
      · cases h
      · split at h
        · cases h
          exact .inl ⟨rfl, rfl, fun v hv => .inl hv, fun e he => by cases he⟩
        · rename_i e hact
          cases h
          refine .inl ⟨rfl, rfl, fun v hv => (by cases hv), fun e' he => ?_⟩
          cases he
          exact ⟨w, rfl, hact⟩
    | commit => cases h
  | written w =>
    cases a with
    | read => cases h
    | write => cases h
    | commit =>
      rw [advance] at h
      split at h
      · rename_i next hact
        cases h
        exact .inr ⟨rfl, rfl, w, rfl, hact⟩
      · rename_i e hact
        cases h
        refine .inl ⟨rfl, rfl, fun v hv => (by cases hv), fun e' he => ?_⟩
        cases he
        exact ⟨w, rfl, hact⟩
  | committed => cases a <;> cases h
  | failed e => cases a <;> cases h

/-- All that a step can do. -/
theorem step_cases {calls : Calls σ ρ ε τ} {w w' : World σ ρ ε τ} {a : Label τ}
    (h : calls.step w a = some w') :
    (∃ call, a = .begin call ∧ w' = { w with begun := w.begun ++ [⟨call, .started⟩] }) ∨
      ∃ k action before b after s phase, a = .act k action ∧ w.begun = before ++ b :: after ∧
        w.begun[k]? = some b ∧ w.others k = before ++ after ∧
        advance (calls.transaction b.call) (calls.blocked b.call (before ++ after)) w.shared b.phase
          action = some (s, phase) ∧
        w' = ⟨s, before ++ ⟨b.call, phase⟩ :: after,
          if phase.isCommitted then w.log ++ [b.call] else w.log⟩ := by
  cases a with
  | begin call =>
    cases h
    exact .inl ⟨call, rfl, rfl⟩
  | act k action =>
    rw [Calls.step] at h
    split at h
    · cases h
    · rename_i b hb
      obtain ⟨⟨s, phase⟩, hadvance, rfl⟩ := Option.map_eq_some_iff.mp h
      obtain ⟨hlt, hget⟩ := List.getElem?_eq_some_iff.mp hb
      have hsplit : w.begun = w.begun.take k ++ b :: w.begun.drop (k + 1) := by
        rw [← hget, List.cons_getElem_drop_succ, List.take_append_drop]
      exact .inr ⟨k, action, w.begun.take k, b, w.begun.drop (k + 1), s, phase, rfl, hsplit, hb, rfl,
        hadvance, rfl⟩

/-! ## An invariant of the log and the committed state -/

section Invariant

variable {calls : Calls σ ρ ε τ} {apart : τ → τ → Prop}
variable {inv : List τ → σ → Prop} {knows : τ → ρ → σ → Prop} {allowed : ε → Prop}

/-- What holds between two actions: the invariant, what is known of each value held, and how calls
have failed. -/
structure Knowing (inv : List τ → σ → Prop) (knows : τ → ρ → σ → Prop) (allowed : ε → Prop)
    (w : World σ ρ ε τ) : Prop where
  inv : inv w.log w.shared
  held : ∀ b ∈ w.begun, ∀ v, held b.phase = some v → knows b.call v w.shared
  failed : ∀ b ∈ w.begun, ∀ e, b.phase = .failed e → allowed e

variable (hread : ∀ p log s, inv log s → knows p ((calls.transaction p).read s) s)
variable (hcommit : ∀ p v log s s', inv log s → knows p v s → (calls.transaction p).act v s = .ok s' →
  inv (log ++ [p]) s' ∧ ∀ q u, apart p q → knows q u s → knows q u s')
variable (hfail : ∀ p v log s e, inv log s → knows p v s → (calls.transaction p).act v s = .error e →
  allowed e)
include hread hcommit hfail

theorem knowing_step (w : World σ ρ ε τ) (a : Label τ) (w' : World σ ρ ε τ)
    (hapart : CommitsApart apart w a) (h : calls.step w a = some w') (hw : Knowing inv knows allowed w) :
    Knowing inv knows allowed w' := by
  rcases step_cases h with ⟨call, rfl, rfl⟩ |
    ⟨k, action, before, b, after, s, phase, rfl, hbegun, hb, hothers, hadvance, rfl⟩
  · refine ⟨hw.inv, fun o ho v hv => ?_, fun o ho e he => ?_⟩
    · rcases List.mem_append.mp ho with ho | ho
      · exact hw.held o ho v hv
      · rw [List.mem_singleton.mp ho] at hv
        cases hv
    · rcases List.mem_append.mp ho with ho | ho
      · exact hw.failed o ho e he
      · rw [List.mem_singleton.mp ho] at he
        cases he
  · have hmem : ∀ o ∈ before ++ after, o ∈ w.begun := by
      intro o ho
      rw [hbegun, mem_before_after]
      exact .inr ho
    have hbmem : b ∈ w.begun := by
      rw [hbegun, mem_before_after]
      exact .inl rfl
    rcases advance_cases hadvance with ⟨rfl, huncommitted, hheld, hfailed⟩ | ⟨rfl, rfl, v, hv, hact⟩
    · refine ⟨by simpa [huncommitted] using hw.inv, fun o ho u hu => ?_, fun o ho e he => ?_⟩
      · rcases mem_before_after.mp ho with rfl | ho
        · rcases hheld u hu with hbefore | rfl
          · exact hw.held b hbmem u hbefore
          · exact hread b.call w.log w.shared hw.inv
        · exact hw.held o (hmem o ho) u hu
      · rcases mem_before_after.mp ho with rfl | ho
        · obtain ⟨v, hv, hact⟩ := hfailed e he
          exact hfail b.call v w.log w.shared e hw.inv (hw.held b hbmem v hv) hact
        · exact hw.failed o (hmem o ho) e he
    · obtain ⟨hinv, hkeeps⟩ := hcommit b.call v w.log w.shared s hw.inv (hw.held b hbmem v hv) hact
      refine ⟨hinv, fun o ho u hu => ?_, fun o ho e he => ?_⟩
      · rcases mem_before_after.mp ho with rfl | ho
        · cases hu
        · have hopen : (Transactions.held o.phase).isSome = true := by rw [hu]; rfl
          have hbeside := hapart b hb o (by rw [hothers]; exact ho) hopen
          exact hkeeps o.call u hbeside (hw.held o (hmem o ho) u hu)
      · rcases mem_before_after.mp ho with rfl | ho
        · cases he
        · exact hw.failed o (hmem o ho) e he

/-- An invariant that a commit keeps by what is known of the value it acts on holds throughout every
run in which what is known is not lost. -/
theorem run_knowing {s : σ} (hinv : inv [] s) {labels : List (Label τ)} {w : World σ ρ ε τ}
    (hapart : Throughout calls.step (CommitsApart apart) (.start s) labels)
    (hrun : run calls.step (.start s) labels = some w) : Knowing inv knows allowed w := by
  have hstart : Knowing inv knows allowed (World.start s : World σ ρ ε τ) := ⟨hinv, nofun, nofun⟩
  exact run_keeps (knowing_step hread hcommit hfail) hapart hrun hstart

end Invariant

/-! ## Calls that are apart -/

/-- The committed calls one after the other, with nothing beside them. -/
def Calls.serial (calls : Calls σ ρ ε τ) (log : List τ) (s : σ) : Except ε σ :=
  log.foldlM (fun s p => (calls.transaction p).alone s) s

theorem serial_concat (calls : Calls σ ρ ε τ) (log : List τ) (p : τ) (s : σ) :
    calls.serial (log ++ [p]) s = calls.serial log s >>= (calls.transaction p).alone := by
  rw [Calls.serial, List.foldlM_append]
  congr 1
  funext s'
  rw [List.foldlM_cons]
  cases (calls.transaction p).alone s' <;> rfl

/-- On good states a call alone leaves a good state, does not change what a call apart from it reads,
and fails as it is allowed to. -/
structure Independent (calls : Calls σ ρ ε τ) (good : σ → Prop) (apart : τ → τ → Prop)
    (allowed : ε → Prop) : Prop where
  keeps : ∀ p s s', good s → (calls.transaction p).alone s = .ok s' → good s'
  reads : ∀ p q s s', apart p q → good s → (calls.transaction p).alone s = .ok s' →
    (calls.transaction q).read s' = (calls.transaction q).read s
  fails : ∀ p s e, good s → (calls.transaction p).alone s = .error e → allowed e

/-- Where every call commits apart from those that hold a value, what is committed is what the
committed calls leave one after the other in the order of their commits, and a call fails as it
may alone. -/
theorem serial_of_apart {calls : Calls σ ρ ε τ} {good : σ → Prop} {apart : τ → τ → Prop}
    {allowed : ε → Prop} (hcalls : Independent calls good apart allowed) {s : σ} (hs : good s)
    {labels : List (Label τ)} {w : World σ ρ ε τ}
    (hapart : Throughout calls.step (CommitsApart apart) (.start s) labels)
    (hrun : run calls.step (.start s) labels = some w) :
    calls.serial w.log s = .ok w.shared ∧ ∀ b ∈ w.begun, ∀ e, b.phase = .failed e → allowed e := by
  have hknowing : Knowing (fun log s' => calls.serial log s = .ok s' ∧ good s')
      (fun q u s' => u = (calls.transaction q).read s') allowed w := by
    apply run_knowing (fun _ _ _ _ => rfl) _ _ ⟨rfl, hs⟩ hapart hrun
    · rintro p v log t t' ⟨hserial, hgood⟩ rfl hact
      refine ⟨⟨?_, hcalls.keeps p t t' hgood hact⟩, ?_⟩
      · rw [serial_concat, hserial, ok_bind]
        exact hact
      · rintro q u hpq rfl
        exact (hcalls.reads p q t t' hpq hgood hact).symm
    · rintro p v log t e ⟨_, hgood⟩ rfl hact
      exact hcalls.fails p t e hgood hact
  exact ⟨hknowing.inv.1, hknowing.failed⟩

end Pybmpmon.Lib.Transactions
