import Pybmpmon.Lib.Fold
import Pybmpmon.Lib.Transition
import Pybmpmon.Database.BatchWriter

/-!
# Tasks that share the batch writer

`BatchWriter` between its awaits. A flush is suspended while it waits for a connection,
for the COPY, for one `update_route_state` or for the release of the connection; any
other task may run then. The flush keeps no batch of its own: it works on the list that
`self.batch` is when it looks, so the lists are kept apart by their age. Only the newest
one, `self.batch`, is appended to.
-/
namespace Pybmpmon.Database.Interleaving

open Pybmpmon.Lib.Fold Pybmpmon.Lib.Transition Pybmpmon.Python Pybmpmon.Models.Route
open Pybmpmon.Database.BatchWriter

/-- Who can be inside `flush`: a connection through `add_route`, the periodic task, or any
other caller, such as `stop`. -/
inductive Task where
  | connection (n : Nat)
  | periodic
  | caller (n : Nat)
  deriving DecidableEq, Repr

/-- Where a flush is suspended. A COPY that has read its records carries them. A flush that
is `unwinding` releases its connection on the way out with an exception. -/
inductive Point where
  | acquiring
  | copying (list : Nat) (sent : Option (List RouteTuple))
  | updating (list index : Nat)
  | releasing
  | unwinding
  deriving DecidableEq, Repr

structure Flush where
  task : Task
  batchCount : Nat
  point : Point
  deriving DecidableEq, Repr

/-- Rows committed by one COPY, and the list it was passed. -/
structure Copy where
  list : Nat
  rows : List RouteTuple
  deriving DecidableEq, Repr

/-- The writer, the lists that `self.batch` was before, and what has happened: the routes
accepted, those accepted since a flush last ran to its end, the COPYs, and the state
updates by list and position. -/
structure Shared where
  writer : Writer
  older : List (List RouteTuple)
  accepted : List RouteTuple
  unflushed : List RouteTuple
  copies : List Copy
  applied : List (Nat × Nat)
  deriving DecidableEq, Repr

namespace Shared

/-- The age of the list that is `self.batch`. -/
def current (s : Shared) : Nat := s.older.length

def content (s : Shared) (list : Nat) : List RouteTuple := (s.older ++ [s.writer.batch]).getD list []

def setRunning (isRunning : Bool) (s : Shared) : Shared :=
  { s with writer := { s.writer with isRunning := isRunning } }

def accept (route : RouteUpdate) (now : Timestamp) (s : Shared) : Shared :=
  { s with
    writer := s.writer.append route now
    accepted := s.accepted ++ [routeTuple route]
    unflushed := s.unflushed ++ [routeTuple route] }

/-- `self.batch = []`. -/
def discard (s : Shared) : Shared :=
  { s with writer := s.writer.clear, older := s.older ++ [s.writer.batch] }

/-- The iterator over a list looks whether it has one more element by now. -/
def iterate (s : Shared) (list index : Nat) : Point :=
  if index < (s.content list).length then .updating list index else .releasing

end Shared

/-- The awaited call is done and the flush runs to its next await. After the COPY the loop
is over the list that `self.batch` is then. -/
def resume (s : Shared) (f : Flush) : Option (Shared × Option Flush) :=
  match f.point with
  | .acquiring => some (s, some { f with point := .copying s.current none })
  | .copying _ none => none
  | .copying list (some rows) =>
      let s := { s with copies := s.copies ++ [⟨list, rows⟩] }
      some (s, some { f with point := s.iterate s.current 0 })
  | .updating list index =>
      let s := { s with applied := s.applied ++ [(list, index)] }
      some (s, some { f with point := s.iterate list (index + 1) })
  | .releasing =>
      let s := { s with writer := s.writer.countBatch f.batchCount, unflushed := [] }
      some (s.discard, none)
  | .unwinding => some (s.discard, none)

/-- The moment at which a COPY takes its records from the list it was passed. -/
def read (s : Shared) (f : Flush) : Option (Shared × Option Flush) :=
  match f.point with
  | .copying list none => some (s, some { f with point := .copying list (some (s.content list)) })
  | _ => none

/-- The awaited call raises a database error and has no effect. -/
def fail (s : Shared) (f : Flush) : Option (Shared × Option Flush) :=
  match f.point with
  | .acquiring => some (s.discard, none)
  | .copying _ _ | .updating _ _ => some (s, some { f with point := .unwinding })
  | .releasing | .unwinding => none

/-- The await raises `CancelledError`. A COPY is rolled back; a state update may have
`landed` before it was cancelled. -/
def cancel (landed : Bool) (s : Shared) (f : Flush) : Option (Shared × Option Flush) :=
  match f.point with
  | .acquiring | .releasing | .unwinding => some (s.discard, none)
  | .copying _ _ => some (s, some { f with point := .unwinding })
  | .updating list index =>
      let s := if landed then { s with applied := s.applied ++ [(list, index)] } else s
      some (s, some { f with point := .unwinding })

abbrev State := System Shared Flush

def initial (batchSize : Nat) (batchTimeout : Timestamp) : State :=
  ⟨⟨(Writer.new batchSize batchTimeout).start, [], [], [], [], []⟩, []⟩

def busy (task : Task) (s : State) : Bool := s.suspended.any fun f => f.task == task

/-- `flush` up to its first await. -/
def startFlush (task : Task) (s : State) : State :=
  if s.shared.writer.batch.length = 0 then s
  else s.spawn ⟨task, s.shared.writer.batch.length, .acquiring⟩

inductive Label where
  | addRoute (n : Nat) (route : RouteUpdate) (now : Timestamp)
  | timer (now : Timestamp)
  | flush (n : Nat)
  | stop
  | resume (k : Nat)
  | read (k : Nat)
  | fail (k : Nat)
  | cancel (k : Nat) (landed : Bool)
  deriving DecidableEq, Repr

/-- No database error and no cancellation. -/
def Label.isClean : Label → Bool
  | .fail _ | .cancel _ _ => false
  | _ => true

/-- What runs between two awaits. A task that is inside `flush` starts no second one. A call
of `add_route` on a stopped writer raises and changes nothing. `stop` is its part before the
first await. -/
def step (s : State) : Label → Option State
  | .addRoute n route now =>
      if busy (.connection n) s then none
      else if s.shared.writer.isRunning = false then some s
      else
        let s : State := ⟨s.shared.accept route now, s.suspended⟩
        some (if s.shared.writer.isFull then startFlush (.connection n) s else s)
  | .timer now =>
      if busy .periodic s || !s.shared.writer.isRunning then none
      else some (if s.shared.writer.isTimedOut now then startFlush .periodic s else s)
  | .flush n => if busy (.caller n) s then none else some (startFlush (.caller n) s)
  | .stop => some ⟨s.shared.setRunning false, s.suspended⟩
  | .resume k => s.go resume k
  | .read k => s.go read k
  | .fail k => s.go fail k
  | .cancel k landed => s.go (cancel landed) k

/-! ## The lists -/

theorem content_current (s : Shared) : s.content s.current = s.writer.batch := by
  simp [Shared.content, Shared.current]

theorem content_older {s : Shared} {list : Nat} (h : list < s.current) :
    s.content list = s.older.getD list [] := by
  simp [Shared.content, List.getElem?_append_left h]

theorem content_beyond {s : Shared} {list : Nat} (h : s.current < list) : s.content list = [] := by
  have hlen : (s.older ++ [s.writer.batch]).length ≤ list := by
    rw [List.length_append, List.length_singleton]
    exact h
  simp [Shared.content, List.getElem?_eq_none hlen]

@[simp] theorem current_accept (route : RouteUpdate) (now : Timestamp) (s : Shared) :
    (s.accept route now).current = s.current := rfl

@[simp] theorem current_discard (s : Shared) : s.discard.current = s.current + 1 := by
  simp [Shared.current, Shared.discard]

/-- Emptying the batch changes no list: the new one is empty, as a list to come is. -/
theorem content_discard (s : Shared) (list : Nat) : s.discard.content list = s.content list := by
  rcases Nat.lt_or_ge s.current list with h | h
  · rw [content_beyond h]
    rcases Nat.lt_or_ge (s.current + 1) list with h' | h'
    · exact content_beyond (by rw [current_discard]; exact h')
    · obtain rfl : list = s.discard.current := by rw [current_discard]; omega
      exact content_current s.discard
  · rw [content_older (by rw [current_discard]; omega)]
    rfl

theorem current_eq {s s' : Shared} (holder : s'.older = s.older) : s'.current = s.current :=
  congrArg List.length holder

theorem content_eq {s s' : Shared} (holder : s'.older = s.older)
    (hbatch : s'.writer.batch = s.writer.batch) (list : Nat) : s'.content list = s.content list := by
  rw [Shared.content, Shared.content, holder, hbatch]

/-- Only the newest list grows. -/
theorem content_accept_of_ne {s : Shared} {list : Nat} (h : list ≠ s.current) (route : RouteUpdate)
    (now : Timestamp) : (s.accept route now).content list = s.content list := by
  rcases Nat.lt_or_gt_of_ne h with h | h
  · rw [content_older h, content_older (by rwa [current_accept])]
    rfl
  · rw [content_beyond h, content_beyond (by rwa [current_accept])]

theorem content_accept_current (s : Shared) (route : RouteUpdate) (now : Timestamp) :
    (s.accept route now).content s.current = s.content s.current ++ [routeTuple route] := by
  rw [content_current, ← current_accept route now, content_current]
  rfl

theorem content_accept (s : Shared) (list : Nat) (route : RouteUpdate) (now : Timestamp) :
    s.content list <+: (s.accept route now).content list := by
  by_cases h : list = s.current
  · rw [h, content_accept_current]
    exact List.prefix_append _ _
  · have hsame := content_accept_of_ne h route now
    exact hsame.symm ▸ List.prefix_rfl

/-! ## COPYs under way -/

/-- The records a suspended COPY has read. -/
def sent (f : Flush) : List Copy :=
  match f.point with
  | .copying list (some rows) => [⟨list, rows⟩]
  | _ => []

/-- The list that a suspended COPY was passed and has still to read. -/
def pendingList (f : Flush) : Option Nat :=
  match f.point with
  | .copying list none => some list
  | _ => none

/-- What COPYs have read, committed or under way. -/
def reads (s : State) : List Copy := s.shared.copies ++ s.suspended.flatMap sent

theorem reads_split (shared : Shared) (before : List Flush) (f : Flush) (after : List Flush) :
    (reads ⟨shared, before ++ f :: after⟩).Perm
      (sent f ++ (shared.copies ++ (before ++ after).flatMap sent)) := by
  simp only [reads, List.flatMap_append, List.flatMap_cons]
  rw [← List.append_assoc, ← List.append_assoc shared.copies]
  exact List.perm_append_comm_assoc _ _ _

/-- A flush that has read nothing shows in no reads. -/
theorem reads_of_sent_nil {f : Flush} (hf : sent f = []) (shared : Shared)
    (before after : List Flush) :
    reads ⟨shared, before ++ f :: after⟩ = reads ⟨shared, before ++ after⟩ := by
  simp [reads, hf]

theorem reads_spawn {f : Flush} (hf : f.point = .acquiring) (s : State) :
    reads (s.spawn f) = reads s := by
  simp [reads, System.spawn, sent, hf]

/-- A flush in its loop, or past it, has no COPY under way. -/
theorem sent_iterate (f : Flush) (s : Shared) (list index : Nat) :
    sent { f with point := s.iterate list index } = [] := by
  rw [sent, Shared.iterate]
  split <;> rename_i h <;> split at h <;> simp_all

theorem pendingList_iterate (f : Flush) (s : Shared) (list index : Nat) :
    pendingList { f with point := s.iterate list index } = none := by
  rw [pendingList, Shared.iterate]
  split <;> rename_i h <;> split at h <;> simp_all

/-- A COPY that commits moves its records from the ones under way to the committed ones. -/
theorem reads_copied {f : Flush} {list : Nat} {rows : List RouteTuple}
    (hf : f.point = .copying list (some rows)) (shared : Shared) (before after : List Flush)
    (index : Nat) :
    (reads ⟨{ shared with copies := shared.copies ++ [⟨list, rows⟩] },
      before ++ { f with point := shared.iterate shared.current index } :: after⟩).Perm
      (reads ⟨shared, before ++ f :: after⟩) := by
  refine (reads_split _ before _ after).trans (List.Perm.trans ?_ (reads_split shared _ f _).symm)
  rw [sent_iterate, List.nil_append, sent, hf, List.append_assoc]
  exact List.perm_append_comm_assoc _ _ _

/-- A COPY that reads adds the rows its list holds. -/
theorem reads_read {f : Flush} {list : Nat} (hf : f.point = .copying list none) (shared : Shared)
    (before after : List Flush) (rows : List RouteTuple) :
    (reads ⟨shared, before ++ { f with point := .copying list (some rows) } :: after⟩).Perm
      (⟨list, rows⟩ :: reads ⟨shared, before ++ f :: after⟩) := by
  refine (reads_split shared before _ after).trans (List.Perm.cons _ ?_)
  have hsplit := (reads_split shared before f after).symm
  rwa [sent, hf] at hsplit

/-! ## What the steps are made of -/

/-- The property is kept by each kind of step that meets `ok`: the running flag, a route that is
accepted, a flush that starts, and each part of a flush between two awaits. -/
structure Kept (ok : State → Label → Prop) (p : State → Prop) : Prop where
  stopped : ∀ s, p s → p ⟨s.shared.setRunning false, s.suspended⟩
  accepted : ∀ s n route now, ok s (.addRoute n route now) → p s →
    p ⟨s.shared.accept route now, s.suspended⟩
  spawned : ∀ s f, busy f.task s = false → f.point = .acquiring → p s → p (s.spawn f)
  acquired : ∀ shared before f after, f.point = .acquiring →
    p ⟨shared, before ++ f :: after⟩ →
    p ⟨shared, before ++ { f with point := .copying shared.current none } :: after⟩
  read : ∀ shared before f after list,
    ok ⟨shared, before ++ f :: after⟩ (.read before.length) → f.point = .copying list none →
    p ⟨shared, before ++ f :: after⟩ →
    p ⟨shared, before ++ { f with point := .copying list (some (shared.content list)) } :: after⟩
  copied : ∀ shared before f after list rows, f.point = .copying list (some rows) →
    p ⟨shared, before ++ f :: after⟩ →
    p ⟨{ shared with copies := shared.copies ++ [⟨list, rows⟩] },
      before ++ { f with point := shared.iterate shared.current 0 } :: after⟩
  updated : ∀ shared before f after list index, f.point = .updating list index →
    p ⟨shared, before ++ f :: after⟩ →
    p ⟨{ shared with applied := shared.applied ++ [(list, index)] },
      before ++ { f with point := shared.iterate list (index + 1) } :: after⟩
  released : ∀ (shared : Shared) before f after,
    ok ⟨shared, before ++ f :: after⟩ (.resume before.length) → f.point = .releasing →
    p ⟨shared, before ++ f :: after⟩ →
    p ⟨Shared.discard { shared with
        writer := shared.writer.countBatch f.batchCount, unflushed := [] }, before ++ after⟩
  unwound : ∀ shared before f after,
    ok ⟨shared, before ++ f :: after⟩ (.resume before.length) → f.point = .unwinding →
    p ⟨shared, before ++ f :: after⟩ → p ⟨shared.discard, before ++ after⟩

/-- A step without error or cancellation is made of these. -/
theorem step_keeps {p : State → Prop} {ok : State → Label → Prop}
    (clean : ∀ s a, ok s a → a.isClean = true) (kept : Kept ok p) (s : State) (a : Label)
    (s' : State) (hok : ok s a) (h : step s a = some s') (hp : p s) : p s' := by
  have hstart : ∀ task s, busy task s ≠ true → p s → p (startFlush task s) := by
    intro task s hfree hs
    rw [startFlush]
    split
    · exact hs
    · exact kept.spawned s _ (Bool.eq_false_iff.mpr hfree) rfl hs
  cases a with
  | addRoute n route now =>
    simp only [step] at h
    split at h
    · cases h
    · rename_i hfree
      split at h
      · cases h
        exact hp
      · cases h
        have haccepted := kept.accepted s n route now hok hp
        split
        · exact hstart _ _ hfree haccepted
        · exact haccepted
  | timer now =>
    simp only [step] at h
    split at h
    · cases h
    · rename_i hfree
      cases h
      split
      · exact hstart _ _ (fun hbusy => hfree (by rw [hbusy, Bool.true_or])) hp
      · exact hp
  | flush n =>
    simp only [step] at h
    split at h
    · cases h
    · rename_i hfree
      cases h
      exact hstart _ _ hfree hp
  | stop =>
    cases h
    exact kept.stopped s hp
  | resume k =>
    obtain ⟨before, f, after, shared, next, hs, rfl, hnext, rfl⟩ := go_split h
    have hstate : s = ⟨s.shared, before ++ f :: after⟩ := by rw [← hs]
    rw [hstate] at hok hp
    cases hpoint : f.point with
    | acquiring =>
      simp only [resume, hpoint] at hnext
      cases hnext
      exact kept.acquired _ before f after hpoint hp
    | copying list rows =>
      cases rows with
      | none => simp [resume, hpoint] at hnext
      | some rows =>
        simp only [resume, hpoint] at hnext
        cases hnext
        exact kept.copied _ before f after list rows hpoint hp
    | updating list index =>
      simp only [resume, hpoint] at hnext
      cases hnext
      exact kept.updated _ before f after list index hpoint hp
    | releasing =>
      simp only [resume, hpoint] at hnext
      cases hnext
      exact kept.released _ before f after hok hpoint hp
    | unwinding =>
      simp only [resume, hpoint] at hnext
      cases hnext
      exact kept.unwound _ before f after hok hpoint hp
  | read k =>
    obtain ⟨before, f, after, shared, next, hs, rfl, hnext, rfl⟩ := go_split h
    have hstate : s = ⟨s.shared, before ++ f :: after⟩ := by rw [← hs]
    rw [hstate] at hok hp
    cases hpoint : f.point with
    | copying list sent =>
      cases sent with
      | none =>
        simp only [read, hpoint] at hnext
        cases hnext
        exact kept.read _ before f after list hok hpoint hp
      | some rows => simp [read, hpoint] at hnext
    | _ => simp [read, hpoint] at hnext
  | fail k => cases clean s _ hok
  | cancel k landed => cases clean s _ hok

/-! ## A flush that nothing interrupts -/

/-- What such a flush leaves. -/
def flushed (s : Shared) : Shared :=
  Shared.discard { s with
    writer := s.writer.countBatch s.writer.batch.length
    copies := s.copies ++ [⟨s.current, s.writer.batch⟩]
    applied := s.applied ++ (List.range' 0 s.writer.batch.length).map fun index => (s.current, index)
    unflushed := [] }

/-- The steps of a flush of `n` routes: the connection, the COPY, the updates, the release. -/
def flushSteps (n : Nat) : List Label :=
  [.resume 0, .read 0, .resume 0] ++ (List.replicate n (.resume 0) ++ [.resume 0])

/-- The loop from one position to the end of the batch. -/
theorem run_updates (k index : Nat) (s : Shared) (task : Task) (n : Nat)
    (h : index + k = s.writer.batch.length) :
    run step ⟨s, [⟨task, n, s.iterate s.current index⟩]⟩ (List.replicate k (.resume 0)) =
      some ⟨{ s with
        applied := s.applied ++ (List.range' index k).map fun i => (s.current, i) },
        [⟨task, n, .releasing⟩]⟩ := by
  induction k generalizing index s with
  | zero =>
    have hend : s.iterate s.current index = .releasing := by
      rw [Shared.iterate, content_current, if_neg (by omega)]
    rw [hend]
    simp [run]
  | succ k ih =>
    have hnext : s.iterate s.current index = .updating s.current index := by
      rw [Shared.iterate, content_current, if_pos (by omega)]
    have hstep : step ⟨s, [⟨task, n, .updating s.current index⟩]⟩ (.resume 0) =
        some ⟨{ s with applied := s.applied ++ [(s.current, index)] },
          [⟨task, n, s.iterate s.current (index + 1)⟩]⟩ := rfl
    have hrest := ih (index + 1) { s with applied := s.applied ++ [(s.current, index)] } (by
      show index + 1 + k = s.writer.batch.length
      omega)
    rw [hnext, List.replicate_succ, run_cons_of hstep, List.range'_succ, List.map_cons]
    apply hrest.trans
    simp only [List.append_assoc, List.singleton_append]
    rfl

/-- Such a flush reads its batch once, applies each of its routes and ends. -/
theorem run_flushSteps (s : Shared) (task : Task) :
    run step ⟨s, [⟨task, s.writer.batch.length, .acquiring⟩]⟩ (flushSteps s.writer.batch.length) =
      some ⟨flushed s, []⟩ := by
  have hacquired : step ⟨s, [⟨task, s.writer.batch.length, .acquiring⟩]⟩ (.resume 0) =
      some ⟨s, [⟨task, s.writer.batch.length, .copying s.current none⟩]⟩ := rfl
  have hread : step ⟨s, [⟨task, s.writer.batch.length, .copying s.current none⟩]⟩ (.read 0) =
      some ⟨s, [⟨task, s.writer.batch.length, .copying s.current (some s.writer.batch)⟩]⟩ := by
    have hcontent := content_current s
    simp only [step, System.go, read]
    rw [← hcontent]
    rfl
  let copied : Shared := { s with copies := s.copies ++ [⟨s.current, s.writer.batch⟩] }
  have hcopied : step ⟨s, [⟨task, s.writer.batch.length,
      .copying s.current (some s.writer.batch)⟩]⟩ (.resume 0) =
      some ⟨copied, [⟨task, s.writer.batch.length, copied.iterate copied.current 0⟩]⟩ := rfl
  have hupdates := run_updates s.writer.batch.length 0 copied task s.writer.batch.length
    (Nat.zero_add _)
  rw [flushSteps, List.cons_append, run_cons_of hacquired, List.cons_append, run_cons_of hread,
    List.cons_append, run_cons_of hcopied, List.nil_append, run_append, hupdates, Option.bind_some]
  rfl

/-! ## The same flush, as one call -/

/-- A database that accepts every call and keeps what it was given. -/
structure Log where
  rows : List RouteUpdatesRow
  calls : List RouteState.StateCall

def recorder : Pool Log where
  acquire := fun log => (.ok (), log)
  copyRecordsToTable := fun rows log => (.ok (), { log with rows := log.rows ++ rows })
  updateRouteState := fun p log => (.ok (), { log with calls := log.calls ++ [p] })

theorem updateStates_recorder (batch : List RouteTuple) (log : Log) :
    updateStates recorder batch log =
      (.ok (), { log with calls := log.calls ++ batch.map stateCall }) := by
  induction batch generalizing log with
  | nil => simp [updateStates]
  | cons t batch ih =>
    rw [updateStates]
    simp only [recorder]
    apply (ih _).trans
    simp

theorem flush_recorder {w : Writer} (h : w.batch ≠ []) (log : Log) :
    flush recorder w log = (.ok (), (w.countBatch w.batch.length).clear,
      ⟨log.rows ++ w.batch.map copyRow, log.calls ++ w.batch.map stateCall⟩) := by
  have hupdates := updateStates_recorder w.batch
    { log with rows := log.rows ++ w.batch.map copyRow }
  exact flush_written h rfl rfl hupdates

/-- What the copies and the applied updates have put into the database. -/
def logOf (s : Shared) : Log where
  rows := (s.copies.flatMap Copy.rows).map copyRow
  calls := s.applied.filterMap fun a => (s.content a.1)[a.2]?.map stateCall

/-- The state updates the flush adds are those of its batch, in order. -/
theorem calls_flushed (s : Shared) :
    ((List.range' 0 s.writer.batch.length).map fun index => (s.current, index)).filterMap
      (fun a => (s.content a.1)[a.2]?.map stateCall) = s.writer.batch.map stateCall := by
  rw [List.filterMap_map, ← List.range_eq_range']
  simp only [Function.comp_def, content_current]
  rw [← List.map_filterMap, filterMap_getElem?]

/-- A flush that nothing interrupts does what `flush` does when it is one call. -/
theorem flushed_refines {s : Shared} (h : s.writer.batch ≠ []) :
    flush recorder s.writer (logOf s) = (.ok (), (flushed s).writer, logOf (flushed s)) := by
  have hcontent : ∀ list, (flushed s).content list = s.content list := fun list =>
    content_discard _ list
  have hrows : (logOf (flushed s)).rows = (logOf s).rows ++ s.writer.batch.map copyRow := by
    simp [logOf, flushed, Shared.discard]
  have hcalls : (logOf (flushed s)).calls = (logOf s).calls ++ s.writer.batch.map stateCall := by
    simp only [logOf, hcontent]
    rw [← calls_flushed, ← List.filterMap_append]
    rfl
  rw [flush_recorder h, ← hrows, ← hcalls]
  rfl

end Pybmpmon.Database.Interleaving
