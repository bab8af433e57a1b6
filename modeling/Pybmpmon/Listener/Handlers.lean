import Pybmpmon.Database.Beginnings
import Pybmpmon.Database.Coherence
import Pybmpmon.Listener.Ledger

/-!
# Handlers that share the batch writer

`_handle_route_monitoring` of any number of connections between its awaits. A handler
adds the routes of its message one after the other. The call that fills the batch is
inside a flush until that ends, and other handlers and the periodic task run meanwhile.
What a flush of its own raises leaves the handler, and the rest of its message is not
added.
-/
namespace Pybmpmon.Listener.Handlers

open Pybmpmon.Lib.Transition Pybmpmon.Models.Route Pybmpmon.Database
open Pybmpmon.Database.BatchWriter Pybmpmon.Database.Interleaving Pybmpmon.Database.Conservation
open Pybmpmon.Database.Beginnings
open Pybmpmon.Protocol.BmpEncoding (encodeRouteMonitoring samplePeer)
open Pybmpmon.Protocol.UpdateEncoding (encodeUpdate)
open Pybmpmon.Listener.Ledger (Message routesOf)

/-- A message, its routes that have been added and those that have not. -/
structure Handling where
  message : Message
  added : List RouteUpdate
  toAdd : List RouteUpdate

/-- The writer, the message each connection is at, those that are done with, the routes in the order they
were added, and how many errors, cancellations and refused calls there have been. -/
structure World where
  writer : Interleaving.State
  current : Nat → Option Handling
  done : List (Nat × Handling)
  queue : List (Nat × RouteUpdate)
  errors : Nat

inductive Label where
  | start (n : Nat) (m : Message)
  | add (n : Nat) (now : Timestamp)
  | refuse (n : Nat)
  | finish (n : Nat)
  | writer (a : Interleaving.Label)

/-- The task whose flush ends with an exception. -/
def raisedIn (s : Interleaving.State) : Interleaving.Label → Option Task
  | .resume k => (s.suspended[k]?).bind fun f => if f.point = .unwinding then some f.task else none
  | .fail k => (s.suspended[k]?).bind fun f => if f.point = .acquiring then some f.task else none
  | .cancel k _ => (s.suspended[k]?).bind fun f =>
      match f.point with
      | .acquiring | .releasing | .unwinding => some f.task
      | .copying _ _ | .updating _ _ => none
  | _ => none

def isAddRoute : Interleaving.Label → Bool
  | .addRoute _ _ _ => true
  | _ => false

namespace World

def setCurrent (n : Nat) (h : Option Handling) (s : World) : World :=
  { s with current := Function.update s.current n h }

/-- The handler is at its end, or has raised. -/
def leave (n : Nat) (s : World) : World :=
  { s.setCurrent n none with done := s.done ++ (s.current n).toList.map fun h => (n, h) }

/-- The messages of a connection, in their order. -/
def handled (n : Nat) (s : World) : List Handling :=
  (s.done.filter fun p => p.1 = n).map Prod.snd ++ (s.current n).toList

end World

def step (s : World) : Label → Option World
  | .start n m =>
      if (s.current n).isSome then none else some (s.setCurrent n (some ⟨m, [], routesOf m⟩))
  | .add n now =>
      match s.current n with
      | some ⟨m, added, route :: toAdd⟩ =>
          if s.writer.shared.writer.isRunning then
            (Interleaving.step s.writer (.addRoute n route now)).map fun writer =>
              { s.setCurrent n (some ⟨m, added ++ [route], toAdd⟩) with
                writer := writer
                queue := s.queue ++ [(n, route)] }
          else none
      | _ => none
  | .refuse n =>
      match s.current n with
      | some ⟨_, _, _ :: _⟩ =>
          -- `add_route` raises when the writer has been stopped
          if s.writer.shared.writer.isRunning || busy (.connection n) s.writer then none
          else some { s.leave n with errors := s.errors + 1 }
      | _ => none
  | .finish n =>
      match s.current n with
      | some ⟨_, _, []⟩ => if busy (.connection n) s.writer then none else some (s.leave n)
      | _ => none
  | .writer a =>
      if isAddRoute a then none
      else (Interleaving.step s.writer a).map fun writer =>
        let s' := { s with writer := writer, errors := s.errors + (!a.isClean).toNat }
        match raisedIn s.writer a with
        | some (.connection n) => s'.leave n
        | _ => s'

def initial (batchSize : Nat) (batchTimeout : Timestamp) : World :=
  ⟨Interleaving.initial batchSize batchTimeout, fun _ => none, [], [], 0⟩

/-! ## The steps of the writer -/

def unwinding (s : Interleaving.State) : Nat := s.suspended.countP fun f => f.point = .unwinding

theorem unwinding_split (shared : Shared) (before : List Flush) (f : Flush) (after : List Flush) :
    unwinding ⟨shared, before ++ f :: after⟩ =
      unwinding ⟨shared, before ++ after⟩ + if f.point = .unwinding then 1 else 0 := by
  simp only [unwinding, List.countP_append, List.countP_cons, decide_eq_true_eq]
  omega

theorem unwinding_kept (bound : Nat) : Kept (fun _ a => a.isClean = true) fun s => unwinding s ≤ bound where
  stopped := fun _ h => h
  accepted := fun _ _ _ _ _ h => h
  spawned := fun s f _ hf h => by
    rw [System.spawn, unwinding, List.countP_append, List.countP_singleton, hf]
    exact h
  acquired := fun shared before f after hf h => by
    rw [unwinding_split, hf, if_neg (by decide)] at h
    rw [unwinding_split, if_neg (by simp)]
    exact h
  read := fun shared before f after list _ hf h => by
    rw [unwinding_split, hf, if_neg (by simp)] at h
    rw [unwinding_split, if_neg (by simp)]
    exact h
  copied := fun shared before f after list rows hf h => by
    rw [unwinding_split, hf, if_neg (by simp)] at h
    rw [unwinding_split, if_neg (Coherence.iterate_ne_unwinding shared shared.current 0)]
    exact h
  updated := fun shared before f after list index hf h => by
    rw [unwinding_split, hf, if_neg (by simp)] at h
    rw [unwinding_split, if_neg (Coherence.iterate_ne_unwinding shared list (index + 1))]
    exact h
  released := fun shared before f after _ hf h => by
    rw [unwinding_split] at h
    exact Nat.le_trans (Nat.le_add_right _ _) h
  unwound := fun shared before f after _ hf h => by
    rw [unwinding_split] at h
    exact Nat.le_trans (Nat.le_add_right _ _) h

theorem getElem?_between {before after : List Flush} (f : Flush) :
    (before ++ f :: after)[before.length]? = some f := by simp

/-- The flush that raises is gone, and without an error or a cancellation it was unwinding. -/
theorem raised_split {s s' : Interleaving.State} {a : Interleaving.Label} {task : Task}
    (hraised : raisedIn s a = some task) (hstep : Interleaving.step s a = some s') :
    ∃ before f after shared, s = ⟨s.shared, before ++ f :: after⟩ ∧ s' = ⟨shared, before ++ after⟩ ∧
      (a.isClean = true → f.point = .unwinding) := by
  cases a with
  | resume k =>
    obtain ⟨before, f, after, shared, next, hs, rfl, hnext, rfl⟩ := go_split hstep
    rw [raisedIn, hs, getElem?_between, Option.bind_some] at hraised
    split at hraised
    · rename_i hpoint
      simp only [resume, hpoint] at hnext
      cases hnext
      exact ⟨before, f, after, _, by rw [← hs], rfl, fun _ => hpoint⟩
    · cases hraised
  | fail k =>
    obtain ⟨before, f, after, shared, next, hs, rfl, hnext, rfl⟩ := go_split hstep
    rw [raisedIn, hs, getElem?_between, Option.bind_some] at hraised
    split at hraised
    · rename_i hpoint
      simp only [fail, hpoint] at hnext
      cases hnext
      exact ⟨before, f, after, _, by rw [← hs], rfl, fun hclean => by cases hclean⟩
    · cases hraised
  | cancel k landed =>
    obtain ⟨before, f, after, shared, next, hs, rfl, hnext, rfl⟩ := go_split hstep
    have hends : next = none := by
      rw [raisedIn, hs, getElem?_between, Option.bind_some] at hraised
      cases hpoint : f.point with
      | copying list rows => rw [hpoint] at hraised; cases hraised
      | updating list index => rw [hpoint] at hraised; cases hraised
      | _ =>
        simp only [cancel, hpoint] at hnext
        cases hnext
        rfl
    subst hends
    exact ⟨before, f, after, _, by rw [← hs], rfl, fun hclean => by cases hclean⟩
  | _ => cases hraised

/-- A flush unwinds after an error or a cancellation, and one that raises unwinds no more. -/
theorem unwinding_step {s s' : Interleaving.State} {a : Interleaving.Label}
    (hstep : Interleaving.step s a = some s') :
    unwinding s' + (raisedIn s a).isSome.toNat ≤ unwinding s + (!a.isClean).toNat := by
  cases hraised : raisedIn s a with
  | none =>
    by_cases ha : a.isClean = true
    · have hclean := step_keeps (fun _ _ => id) (unwinding_kept (unwinding s)) s a s' ha hstep (Nat.le_refl _)
      rw [ha]
      exact hclean
    · obtain ⟨before, f, after, shared, hs, _, ⟨rfl, _⟩ | rfl⟩ := interrupted (Bool.eq_false_iff.mpr ha) hstep
      · have hstate : unwinding s = unwinding ⟨s.shared, before ++ f :: after⟩ := by rw [← hs]
        rw [hstate, unwinding_split]
        exact Nat.le_trans (Nat.le_add_right _ _) (Nat.le_add_right _ _)
      · have hstate : unwinding s = unwinding ⟨s.shared, before ++ f :: after⟩ := by rw [← hs]
        rw [hstate, unwinding_split, unwinding_split, if_pos rfl, Bool.eq_false_iff.mpr ha]
        exact Nat.add_le_add_right (Nat.le_add_right _ _) 1
  | some task =>
    obtain ⟨before, f, after, shared, hs, rfl, hclean⟩ := raised_split hraised hstep
    have hstate : unwinding s = unwinding ⟨s.shared, before ++ f :: after⟩ := by rw [← hs]
    rw [hstate, unwinding_split]
    by_cases ha : a.isClean = true
    · rw [if_pos (hclean ha)]
      exact Nat.le_add_right _ _
    · rw [Bool.eq_false_iff.mpr ha]
      exact Nat.add_le_add_right (Nat.le_add_right _ _) 1

theorem accepted_kept (accepted : List RouteTuple) :
    Kept (fun _ a => a.isClean = true ∧ isAddRoute a = false) fun s => s.shared.accepted = accepted where
  stopped := fun _ h => h
  accepted := fun _ _ _ _ hok _ => by cases hok.2
  spawned := fun _ _ _ _ h => h
  acquired := fun _ _ _ _ _ h => h
  read := fun _ _ _ _ _ _ _ h => h
  copied := fun _ _ _ _ _ _ _ h => h
  updated := fun _ _ _ _ _ _ _ h => h
  released := fun _ _ _ _ _ _ h => h
  unwound := fun _ _ _ _ _ _ h => h

/-- Nothing is accepted but by `add_route`. -/
theorem accepted_step {s s' : Interleaving.State} {a : Interleaving.Label} (ha : isAddRoute a = false)
    (hstep : Interleaving.step s a = some s') : s'.shared.accepted = s.shared.accepted := by
  by_cases hclean : a.isClean = true
  · exact step_keeps (fun _ _ hok => hok.1) (accepted_kept s.shared.accepted) s a s' ⟨hclean, ha⟩ hstep rfl
  · obtain ⟨_, _, haccepted, _⟩ := interrupted_reads (Bool.eq_false_iff.mpr hclean) hstep
    exact haccepted

theorem startFlush_shared (task : Task) (s : Interleaving.State) : (startFlush task s).shared = s.shared := by
  rw [startFlush]
  split <;> rfl

theorem accepted_addRoute {s s' : Interleaving.State} {n : Nat} {route : RouteUpdate} {now : Timestamp}
    (hrunning : s.shared.writer.isRunning = true)
    (hstep : Interleaving.step s (.addRoute n route now) = some s') :
    s'.shared.accepted = s.shared.accepted ++ [routeTuple route] := by
  simp only [Interleaving.step, hrunning, Bool.true_eq_false, if_false] at hstep
  split at hstep
  · cases hstep
  · cases hstep
    split
    · rw [startFlush_shared]
      rfl
    · rfl

/-! ## The messages of the connections -/

theorem handled_other {n m : Nat} (h : n ≠ m) (x : Option Handling) (s : World) :
    (s.setCurrent m x).handled n = s.handled n := by
  simp only [World.handled, World.setCurrent, Function.update_of_ne h]

theorem handled_own (n : Nat) (x : Option Handling) (s : World) :
    (s.setCurrent n x).handled n = (s.done.filter fun p => p.1 = n).map Prod.snd ++ x.toList := by
  simp only [World.handled, World.setCurrent, Function.update_self]

/-- A handler that is left stays among those of its connection. -/
theorem handled_leave (n m : Nat) (s : World) : (s.leave m).handled n = s.handled n := by
  by_cases h : n = m
  · subst h
    simp only [World.handled, World.leave, World.setCurrent, List.filter_append, List.map_append,
      Function.update_self]
    cases s.current n <;> simp
  · simp only [World.handled, World.leave, World.setCurrent, List.filter_append, Function.update_of_ne h]
    cases s.current m <;> simp [Ne.symm h]

/-- The handlers that were left before they had added all. -/
def World.cut (s : World) : Nat := s.done.countP fun p => !p.2.toAdd.isEmpty

theorem cut_leave (n : Nat) (s : World) :
    (s.leave n).cut ≤ s.cut + 1 ∧ (∀ h, s.current n = some h → h.toAdd = [] → (s.leave n).cut = s.cut) := by
  simp only [World.cut, World.leave, List.countP_append]
  cases s.current n with
  | none => exact ⟨Nat.le_add_right _ _, fun h hnone => by cases hnone⟩
  | some h =>
    refine ⟨Nat.add_le_add_left List.countP_le_length _, fun h' hsome hall => ?_⟩
    cases hsome
    simp [hall]

/-- What is added of the messages, what the batches hold of it and what is read of the batches. -/
structure Accounts (s : World) : Prop where
  begins : Begins s.writer
  queued : s.writer.shared.accepted = s.queue.map fun p => routeTuple p.2
  own : ∀ n, (s.queue.filter fun p => p.1 = n).map Prod.snd = (s.handled n).flatMap Handling.added
  asked : ∀ n, ∀ h ∈ s.handled n, h.added ++ h.toAdd = routesOf h.message
  cuts : s.cut + unwinding s.writer ≤ s.errors

theorem accounts_start {s : World} {n : Nat} (hidle : s.current n = none) (m : Message) (h : Accounts s) :
    Accounts (s.setCurrent n (some ⟨m, [], routesOf m⟩)) := by
  have hstarted : (s.setCurrent n (some ⟨m, [], routesOf m⟩)).handled n = s.handled n ++ [⟨m, [], routesOf m⟩] := by
    rw [handled_own, World.handled, hidle, Option.toList_none, List.append_nil, Option.toList_some]
  refine ⟨h.begins, h.queued, fun k => ?_, fun k => ?_, h.cuts⟩
  · by_cases hk : k = n
    · subst hk
      rw [hstarted, List.flatMap_append, ← h.own k]
      exact (List.append_nil _).symm
    · rw [handled_other hk]
      exact h.own k
  · by_cases hk : k = n
    · subst hk
      rw [hstarted]
      intro x hx
      rcases List.mem_append.mp hx with hx | hx
      · exact h.asked k x hx
      · rw [List.mem_singleton.mp hx]
        rfl
    · rw [handled_other hk]
      exact h.asked k

theorem accounts_add {s : World} {n : Nat} {m : Message} {added toAdd : List RouteUpdate} {route : RouteUpdate}
    {now : Timestamp} {writer : Interleaving.State} (hcurrent : s.current n = some ⟨m, added, route :: toAdd⟩)
    (hrunning : s.writer.shared.writer.isRunning = true)
    (hstep : Interleaving.step s.writer (.addRoute n route now) = some writer) (h : Accounts s) :
    Accounts { s.setCurrent n (some ⟨m, added ++ [route], toAdd⟩) with
      writer := writer
      queue := s.queue ++ [(n, route)] } := by
  have hbefore : s.handled n = (s.done.filter fun p => p.1 = n).map Prod.snd ++ [⟨m, added, route :: toAdd⟩] := by
    rw [World.handled, hcurrent, Option.toList_some]
  have hafter : (s.setCurrent n (some ⟨m, added ++ [route], toAdd⟩)).handled n =
      (s.done.filter fun p => p.1 = n).map Prod.snd ++ [⟨m, added ++ [route], toAdd⟩] := handled_own ..
  refine ⟨begins_step hstep h.begins, ?_, fun k => ?_, fun k => ?_, ?_⟩
  · rw [accepted_addRoute hrunning hstep, h.queued, List.map_append]
    rfl
  · rw [List.filter_append, List.map_append, h.own k]
    by_cases hk : k = n
    · subst hk
      have hhandled := hafter
      simp only [World.handled] at hhandled hbefore ⊢
      rw [hhandled, hbefore]
      simp
    · have hother := handled_other hk (some ⟨m, added ++ [route], toAdd⟩) s
      simp only [World.handled] at hother ⊢
      rw [hother]
      simp [Ne.symm hk]
  · by_cases hk : k = n
    · subst hk
      intro x hx
      have hx : x ∈ (s.setCurrent k (some ⟨m, added ++ [route], toAdd⟩)).handled k := hx
      rw [hafter] at hx
      rcases List.mem_append.mp hx with hx | hx
      · exact h.asked k x (hbefore ▸ List.mem_append_left _ hx)
      · rw [List.mem_singleton.mp hx, List.append_assoc, List.singleton_append]
        exact h.asked k ⟨m, added, route :: toAdd⟩ (hbefore ▸ List.mem_append_right _ (List.mem_singleton_self _))
    · intro x hx
      have hx : x ∈ (s.setCurrent n (some ⟨m, added ++ [route], toAdd⟩)).handled k := hx
      rw [handled_other hk] at hx
      exact h.asked k x hx
  · have hunwinding := unwinding_step hstep
    exact Nat.le_trans (Nat.add_le_add_left (Nat.le_trans (Nat.le_add_right _ _) hunwinding) _) h.cuts

theorem accounts_leave {s : World} {n : Nat} (h : Accounts s)
    (hcuts : (s.leave n).cut + unwinding s.writer ≤ s.errors) : Accounts (s.leave n) where
  begins := h.begins
  queued := h.queued
  own := fun k => by
    rw [handled_leave]
    exact h.own k
  asked := fun k => by
    rw [handled_leave]
    exact h.asked k
  cuts := hcuts

/-- The step of a flush or of the periodic task; there is room for the handler it may end. -/
theorem accounts_writer {s : World} {a : Interleaving.Label} {writer : Interleaving.State}
    (ha : isAddRoute a = false) (hstep : Interleaving.step s.writer a = some writer) (h : Accounts s) :
    Accounts { s with writer := writer, errors := s.errors + (!a.isClean).toNat } ∧
      s.cut + unwinding writer + (raisedIn s.writer a).isSome.toNat ≤ s.errors + (!a.isClean).toNat := by
  have hroom : s.cut + unwinding writer + (raisedIn s.writer a).isSome.toNat ≤
      s.errors + (!a.isClean).toNat := by
    have hunwinding := unwinding_step hstep
    have hcuts := h.cuts
    omega
  refine ⟨⟨begins_step hstep h.begins, ?_, h.own, h.asked, Nat.le_trans (Nat.le_add_right _ _) hroom⟩, hroom⟩
  exact (accepted_step ha hstep).trans h.queued

theorem accounts_step {s s' : World} {a : Label} (hstep : step s a = some s') (h : Accounts s) :
    Accounts s' := by
  cases a with
  | start n m =>
    rw [step] at hstep
    split at hstep
    · cases hstep
    · rename_i hidle
      cases hstep
      exact accounts_start (Option.not_isSome_iff_eq_none.mp hidle) m h
  | add n now =>
    rw [step] at hstep
    split at hstep
    · rename_i m added route toAdd hcurrent
      split at hstep
      · rename_i hrunning
        obtain ⟨writer, hwriter, rfl⟩ := Option.map_eq_some_iff.mp hstep
        exact accounts_add hcurrent hrunning hwriter h
      · cases hstep
    · cases hstep
  | refuse n =>
    rw [step] at hstep
    split at hstep
    · split at hstep
      · cases hstep
      · cases hstep
        have hcuts := Nat.add_le_add (cut_leave n s).1 (Nat.le_refl (unwinding s.writer))
        have hleft : Accounts ({ s with errors := s.errors + 1 } : World) :=
          ⟨h.begins, h.queued, h.own, h.asked, Nat.le_succ_of_le h.cuts⟩
        refine accounts_leave hleft (Nat.le_trans hcuts ?_)
        rw [Nat.add_right_comm]
        exact Nat.succ_le_succ h.cuts
    · cases hstep
  | finish n =>
    rw [step] at hstep
    split at hstep
    · rename_i hcurrent
      split at hstep
      · cases hstep
      · cases hstep
        refine accounts_leave h ?_
        rw [(cut_leave n s).2 _ hcurrent rfl]
        exact h.cuts
    · cases hstep
  | writer a =>
    rw [step] at hstep
    split at hstep
    · cases hstep
    · rename_i ha
      obtain ⟨writer, hwriter, rfl⟩ := Option.map_eq_some_iff.mp hstep
      obtain ⟨hkept, hroom⟩ := accounts_writer (Bool.eq_false_iff.mpr ha) hwriter h
      split
      · rename_i n hraised
        rw [hraised] at hroom
        refine accounts_leave hkept (Nat.le_trans (Nat.add_le_add_right (cut_leave n _).1 _) ?_)
        rw [Nat.add_right_comm]
        exact hroom
      · exact hkept

/-! ## Whole runs -/

/-- No COPY reads rows of a list that another has read. -/
def Fresh (s : World) : Label → Prop
  | .writer a => ReadsFresh s.writer a
  | _ => True

instance (s : World) : (a : Label) → Decidable (Fresh s a)
  | .writer a => inferInstanceAs (Decidable (ReadsFresh s.writer a))
  | .start _ _ | .add _ _ | .refuse _ | .finish _ => inferInstanceAs (Decidable True)

theorem readOnce_world {s s' : World} {a : Label} (hfresh : Fresh s a) (hstep : step s a = some s')
    (h : ReadOnce s.writer) : ReadOnce s'.writer := by
  cases a with
  | start n m =>
    rw [step] at hstep
    split at hstep <;> cases hstep
    exact h
  | add n now =>
    rw [step] at hstep
    split at hstep
    · split at hstep
      · rename_i route _ _ _
        obtain ⟨writer, hwriter, rfl⟩ := Option.map_eq_some_iff.mp hstep
        have hadd : ReadsFresh s.writer (.addRoute n route now) := trivial
        exact readOnce_step hadd hwriter h
      · cases hstep
    · cases hstep
  | refuse n =>
    rw [step] at hstep
    split at hstep
    · split at hstep <;> cases hstep
      exact h
    · cases hstep
  | finish n =>
    rw [step] at hstep
    split at hstep
    · split at hstep <;> cases hstep
      exact h
    · cases hstep
  | writer a =>
    rw [step] at hstep
    split at hstep
    · cases hstep
    · obtain ⟨writer, hwriter, rfl⟩ := Option.map_eq_some_iff.mp hstep
      have honce := readOnce_step hfresh hwriter h
      split
      · exact honce
      · exact honce

/-- However handlers, flushes and the periodic task are interleaved, and whatever fails, is cancelled or is
stopped: the queue holds of each connection the beginnings of what its messages ask for, in their order,
each to its end but for one message for each error; it is cut into batches one after the other; and what a
COPY reads is a beginning of a batch. When no COPY reads rows of a batch that another has read, nothing is
written more often than it was added. -/
theorem interleaved_stored (batchSize : Nat) (batchTimeout : Timestamp) {labels : List Label} {s : World}
    (hrun : run step (initial batchSize batchTimeout) labels = some s) :
    Accounts s ∧ (Throughout step Fresh (initial batchSize batchTimeout) labels →
      (rowsWritten s.writer).Subperm (s.queue.map fun p => routeTuple p.2)) := by
  have hstart : Accounts (initial batchSize batchTimeout) :=
    ⟨begins_initial batchSize batchTimeout, rfl, fun _ => rfl, fun _ _ hx => absurd hx List.not_mem_nil,
      Nat.le_refl 0⟩
  have hany : Throughout step (fun _ _ => True) (initial batchSize batchTimeout) labels :=
    throughout_of_always (fun _ _ => trivial) labels _
  have haccounts : Accounts s := run_keeps (fun _ _ _ _ => accounts_step) hany hrun hstart
  refine ⟨haccounts, fun hfresh => ?_⟩
  have hunread : ReadOnce (initial batchSize batchTimeout).writer := List.nodup_nil
  have honce : ReadOnce s.writer :=
    run_keeps (p := fun s => ReadOnce s.writer) (fun _ _ _ => readOnce_world) hfresh hrun hunread
  rw [← haccounts.queued]
  exact written_subperm haccounts.begins honce

/-- 10.0.0.0/8 and 11.0.0.0/8, with a MED. -/
def twoPrefixes : Message :=
  ⟨Records.routerA, Ledger.timesFrom 100, .routeMonitoring,
    encodeRouteMonitoring samplePeer (encodeUpdate [] [⟨0x80, 4, [0, 0, 0, 5]⟩] [8, 10, 8, 11])⟩

/-- Two connections; the first route of the second fills the batch, and a state update of its flush fails. -/
def oneRaises : List Label :=
  [.start 0 twoPrefixes, .start 1 twoPrefixes, .add 0 100, .add 1 100, .writer (.resume 0),
    .writer (.read 0), .writer (.resume 0), .writer (.fail 0), .writer (.resume 0), .add 0 100, .finish 0]

theorem interleaved_stored_raises :
    let s := (run step (initial 2 500) oneRaises).get (by decide +kernel)
    Accounts s ∧ (rowsWritten s.writer).Subperm (s.queue.map fun p => routeTuple p.2) :=
  have h := @interleaved_stored 2 500 oneRaises _ (Option.some_get _).symm
  ⟨h.1, h.2 (by decide +kernel)⟩

end Pybmpmon.Listener.Handlers
