import Pybmpmon.Database.Interleaving

/-!
# The batch timer

`BatchWriter` from its construction on: `start` and `stop`, any number of times, with the
periodic tasks that `start` creates and `stop` cancels, around the flushes of any number of
callers. Each call may fail or be cancelled at each of its awaits.
-/
namespace Pybmpmon.Database.BatchTimer

open Pybmpmon.Lib.Transition Pybmpmon.Python Pybmpmon.Models.Route
open Pybmpmon.Database.BatchWriter
open Pybmpmon.Database.Interleaving hiding State initial busy startFlush Label step

/-- The writer, the routes that were added so far with the time of each, and the periodic task
that `flush_task` is. The tasks are numbered as they are created. -/
structure Clocked where
  shared : Shared
  arrived : List (RouteTuple × Timestamp)
  flushTask : Option Nat
  deriving DecidableEq, Repr

namespace Clocked

abbrev writer (c : Clocked) : Writer := c.shared.writer

def setRunning (isRunning : Bool) (c : Clocked) : Clocked :=
  { c with shared := c.shared.setRunning isRunning }

def accept (route : RouteUpdate) (now : Timestamp) (c : Clocked) : Clocked :=
  { c with
    shared := c.shared.accept route now
    arrived := c.arrived ++ [(routeTuple route, now)] }

/-- The number of the task that `start` creates. -/
def nextTask (c : Clocked) : Nat := c.flushTask.elim 0 (· + 1)

end Clocked

/-- Whose call it is. -/
inductive Owner where
  | connection (n : Nat)
  | periodic (n : Nat)
  | caller (n : Nat)
  | stop (n : Nat)
  deriving DecidableEq, Repr

def Owner.task : Owner → Task
  | .connection n => .connection n
  | .periodic _ => .periodic
  | .caller n | .stop n => .caller n

/-- Where a call is suspended: a periodic task before its first step or in its sleep, a flush,
`stop` until the periodic task has ended. A flush that is `cancelled` ends with
`CancelledError`. -/
inductive Process where
  | created (n : Nat)
  | asleep (n : Nat)
  | flushing (owner : Owner) (f : Flush) (cancelled : Bool)
  | awaiting (n task : Nat)
  deriving DecidableEq, Repr

def Process.owner : Process → Owner
  | .created n | .asleep n => .periodic n
  | .flushing owner _ _ => owner
  | .awaiting n _ => .stop n

/-- The loop of `_periodic_flush` up to its next await. -/
def loop (n : Nat) (c : Clocked) : Option Process :=
  if c.writer.isRunning then some (.asleep n) else none

/-- What follows a flush. The periodic task ends when it was cancelled and logs whatever else was
raised; the other calls return or raise. -/
def afterFlush (owner : Owner) (cancelled : Bool) (c : Clocked) : Option Process :=
  match owner with
  | .periodic n => if cancelled then none else loop n c
  | .connection _ | .caller _ | .stop _ => none

/-- `flush` up to its first await. -/
def enterFlush (owner : Owner) (c : Clocked) : Option Process :=
  if c.writer.batch.length = 0 then afterFlush owner false c
  else some (.flushing owner ⟨owner.task, c.writer.batch.length, .acquiring⟩ false)

/-- A part of a flush, and what follows when the flush ends with it. -/
def goOn (part : Shared → Flush → Option (Shared × Option Flush)) (owner : Owner) (f : Flush)
    (cancelled : Bool) (c : Clocked) : Option (Clocked × Option Process) :=
  match part c.shared f with
  | none => none
  | some (shared, some f) => some ({ c with shared := shared }, some (.flushing owner f cancelled))
  | some (shared, none) =>
      let c := { c with shared := shared }
      some (c, afterFlush owner cancelled c)

/-- The await is over. `stop` goes on when the task it awaits has ended. -/
def wake (now : Timestamp) (ended : Nat → Bool) (c : Clocked) :
    Process → Option (Clocked × Option Process)
  | .created n => some (c, loop n c)
  | .asleep n =>
      some (c, if c.writer.isTimedOut now then enterFlush (.periodic n) c else loop n c)
  | .flushing owner f cancelled => goOn resume owner f cancelled c
  | .awaiting n task => if ended task then some (c, enterFlush (.stop n) c) else none

def takeRecords (c : Clocked) : Process → Option (Clocked × Option Process)
  | .flushing owner f cancelled => goOn read owner f cancelled c
  | .created _ | .asleep _ | .awaiting _ _ => none

/-- The release of a connection may fail as any other call. -/
def failAnywhere (s : Shared) (f : Flush) : Option (Shared × Option Flush) :=
  match f.point with
  | .releasing | .unwinding => some (s.discard, none)
  | .acquiring | .copying _ _ | .updating _ _ => fail s f

/-- A database error takes the place of a `CancelledError` that is on its way. -/
def raiseError (c : Clocked) : Process → Option (Clocked × Option Process)
  | .flushing owner f _ => goOn failAnywhere owner f false c
  | .created _ | .asleep _ | .awaiting _ _ => none

/-- A cancelled `stop` cancels the task it awaits once more, and goes on. -/
def raiseCancelled (landed : Bool) (c : Clocked) : Process → Option (Clocked × Option Process)
  | .created _ | .asleep _ => some (c, none)
  | .flushing owner f _ => goOn (cancel landed) owner f true c
  | .awaiting _ _ => none

abbrev State := System Clocked Process

/-- After `__init__`. -/
def initial (batchSize : Nat) (batchTimeout : Timestamp) : State :=
  ⟨⟨⟨Writer.new batchSize batchTimeout, [], [], [], [], []⟩, [], none⟩, []⟩

/-- The call is under way. -/
def busy (owner : Owner) (s : State) : Bool := s.suspended.any fun p => p.owner == owner

def ended (s : State) (task : Nat) : Bool := !busy (.periodic task) s

/-- `add_route` up to its first await. -/
def enterAddRoute (n : Nat) (route : RouteUpdate) (now : Timestamp) (s : State) :
    Except PyErr State :=
  if s.shared.writer.isRunning = false then
    .error (.runtimeError "Batch writer is not running. Call start() first.")
  else
    let c := s.shared.accept route now
    let p := if c.writer.isFull then enterFlush (.connection n) c else none
    .ok ⟨c, s.suspended ++ p.toList⟩

/-- `stop` up to its first await. The `CancelledError` it asks for is a step of its own. -/
def enterStop (n : Nat) (s : State) : State :=
  let c := s.shared.setRunning false
  let p :=
    match c.flushTask with
    | none => enterFlush (.stop n) c
    | some task => if ended s task then enterFlush (.stop n) c else some (.awaiting n task)
  ⟨c, s.suspended ++ p.toList⟩

inductive Label where
  | start
  | addRoute (n : Nat) (route : RouteUpdate) (now : Timestamp)
  | flush (n : Nat)
  | stop (n : Nat)
  | wake (k : Nat) (now : Timestamp)
  | read (k : Nat)
  | fail (k : Nat)
  | cancel (k : Nat) (landed : Bool)
  deriving DecidableEq, Repr

/-- What runs between two awaits. A caller that is inside a call makes no second one. -/
def step (s : State) : Label → Option State
  | .start =>
      some ⟨{ s.shared.setRunning true with flushTask := some s.shared.nextTask },
        s.suspended ++ [.created s.shared.nextTask]⟩
  | .addRoute n route now =>
      if busy (.connection n) s then none
      else
        match enterAddRoute n route now s with
        | .error _ => some s
        | .ok s => some s
  | .flush n =>
      if busy (.caller n) s then none
      else some ⟨s.shared, s.suspended ++ (enterFlush (.caller n) s.shared).toList⟩
  | .stop n => if busy (.stop n) s then none else some (enterStop n s)
  | .wake k now => s.go (wake now (ended s)) k
  | .read k => s.go takeRecords k
  | .fail k => s.go raiseError k
  | .cancel k landed => s.go (raiseCancelled landed) k

/-- The batch is the newest of the routes that were added, and the start time is that of the first
of them. -/
def Armed (c : Clocked) : Prop :=
  ∃ earlier waiting, c.arrived = earlier ++ waiting ∧ c.writer.batch = waiting.map Prod.fst ∧
    c.writer.batchStartTime = waiting.head?.map Prod.snd

/-! ## Parts of a flush -/

/-- The batch is left empty, with the timer off. -/
structure Emptied (w w' : Writer) : Prop where
  batch : w'.batch = []
  batchStartTime : w'.batchStartTime = none
  isRunning : w'.isRunning = w.isRunning

theorem emptied_discard (s : Shared) : Emptied s.writer s.discard.writer := ⟨rfl, rfl, rfl⟩

/-- The writer is as before while the flush goes on, and the batch is empty when it ends. -/
def EmptiesAtEnd (part : Shared → Flush → Option (Shared × Option Flush)) : Prop :=
  ∀ s f s' next, part s f = some (s', next) →
    (∃ g, next = some g ∧ s'.writer = s.writer) ∨ (next = none ∧ Emptied s.writer s'.writer)

theorem resume_emptiesAtEnd : EmptiesAtEnd resume := by
  intro s f s' next h
  obtain ⟨task, batchCount, point⟩ := f
  cases point with
  | copying list sent =>
    cases sent with
    | none => cases h
    | some rows =>
      cases h
      exact .inl ⟨_, rfl, rfl⟩
  | acquiring | updating =>
    cases h
    exact .inl ⟨_, rfl, rfl⟩
  | releasing | unwinding =>
    cases h
    exact .inr ⟨rfl, rfl, rfl, rfl⟩

theorem read_emptiesAtEnd : EmptiesAtEnd read := by
  intro s f s' next h
  obtain ⟨task, batchCount, point⟩ := f
  cases point with
  | copying list sent =>
    cases sent with
    | none =>
      cases h
      exact .inl ⟨_, rfl, rfl⟩
    | some rows => cases h
  | _ => cases h

theorem failAnywhere_emptiesAtEnd : EmptiesAtEnd failAnywhere := by
  intro s f s' next h
  obtain ⟨task, batchCount, point⟩ := f
  cases point with
  | copying | updating =>
    cases h
    exact .inl ⟨_, rfl, rfl⟩
  | acquiring | releasing | unwinding =>
    cases h
    exact .inr ⟨rfl, emptied_discard s⟩

theorem cancel_emptiesAtEnd (landed : Bool) : EmptiesAtEnd (cancel landed) := by
  intro s f s' next h
  obtain ⟨task, batchCount, point⟩ := f
  cases point with
  | copying =>
    cases h
    exact .inl ⟨_, rfl, rfl⟩
  | updating =>
    cases landed <;> cases h <;> exact .inl ⟨_, rfl, rfl⟩
  | acquiring | releasing | unwinding =>
    cases h
    exact .inr ⟨rfl, emptied_discard s⟩

/-! ## A call that goes on -/

/-- No route is added, the writer is as before or its batch is empty, and a `stop` that is over
leaves the batch empty. -/
structure GoesOn (c : Clocked) (p : Process) (c' : Clocked) (p' : Option Process) : Prop where
  arrived : c'.arrived = c.arrived
  writer : c'.writer = c.writer ∨ Emptied c.writer c'.writer
  stopping : ∀ n, p.owner = .stop n → (∃ q ∈ p', q.owner = .stop n) ∨ c'.writer.batch = []

theorem goOn_goesOn {part : Shared → Flush → Option (Shared × Option Flush)}
    (hpart : EmptiesAtEnd part) {owner : Owner} {f : Flush} {cancelled : Bool} {c c' : Clocked}
    {p' : Option Process} (h : goOn part owner f cancelled c = some (c', p')) {p : Process}
    (hp : p.owner = owner) : GoesOn c p c' p' := by
  rw [goOn] at h
  split at h
  · cases h
  · rename_i shared g hnext
    cases h
    rcases hpart _ _ _ _ hnext with ⟨_, _, hwriter⟩ | ⟨hnone, _⟩
    · exact ⟨rfl, .inl hwriter, fun n hn => .inl ⟨_, rfl, hp.symm.trans hn⟩⟩
    · cases hnone
  · rename_i shared hnext
    cases h
    rcases hpart _ _ _ _ hnext with ⟨_, hsome, _⟩ | ⟨_, hemptied⟩
    · cases hsome
    · exact ⟨rfl, .inr hemptied, fun _ _ => .inr hemptied.batch⟩

/-- The final flush of a `stop` begins, or there is nothing in the batch. -/
theorem enterFlush_stop (n : Nat) (c : Clocked) :
    (∃ q ∈ enterFlush (.stop n) c, q.owner = .stop n) ∨ c.writer.batch = [] := by
  rw [enterFlush]
  split_ifs with hempty
  · exact .inr (List.length_eq_zero_iff.mp hempty)
  · exact .inl ⟨_, rfl, rfl⟩

/-- A step that only changes the suspended calls. -/
theorem goesOn_same {c : Clocked} {p : Process} {p' : Option Process}
    (hp : ∀ n, p.owner ≠ .stop n) : GoesOn c p c p' :=
  ⟨rfl, .inl rfl, fun n hn => absurd hn (hp n)⟩

theorem wake_goesOn {now : Timestamp} {ended : Nat → Bool} {c c' : Clocked} {p : Process}
    {p' : Option Process} (h : wake now ended c p = some (c', p')) : GoesOn c p c' p' := by
  cases p with
  | created n =>
    cases h
    exact goesOn_same nofun
  | asleep n =>
    cases h
    exact goesOn_same nofun
  | flushing owner f cancelled => exact goOn_goesOn resume_emptiesAtEnd h rfl
  | awaiting n task =>
    rw [wake] at h
    split at h
    · cases h
      refine ⟨rfl, .inl rfl, fun m hm => ?_⟩
      cases hm
      exact enterFlush_stop n c
    · cases h

theorem takeRecords_goesOn {c c' : Clocked} {p : Process} {p' : Option Process}
    (h : takeRecords c p = some (c', p')) : GoesOn c p c' p' := by
  cases p with
  | flushing owner f cancelled => exact goOn_goesOn read_emptiesAtEnd h rfl
  | _ => cases h

theorem raiseError_goesOn {c c' : Clocked} {p : Process} {p' : Option Process}
    (h : raiseError c p = some (c', p')) : GoesOn c p c' p' := by
  cases p with
  | flushing owner f cancelled => exact goOn_goesOn failAnywhere_emptiesAtEnd h rfl
  | _ => cases h

theorem raiseCancelled_goesOn {landed : Bool} {c c' : Clocked} {p : Process} {p' : Option Process}
    (h : raiseCancelled landed c p = some (c', p')) : GoesOn c p c' p' := by
  cases p with
  | created n | asleep n =>
    cases h
    exact goesOn_same nofun
  | flushing owner f cancelled => exact goOn_goesOn (cancel_emptiesAtEnd landed) h rfl
  | awaiting n task => cases h

/-! ## What a step does -/

inductive Stepped (s : State) : Label → State → Prop where
  | start : Stepped s .start ⟨{ s.shared.setRunning true with flushTask := some s.shared.nextTask },
      s.suspended ++ [.created s.shared.nextTask]⟩
  | rejected (n : Nat) (route : RouteUpdate) (now : Timestamp) :
      s.shared.writer.isRunning = false → Stepped s (.addRoute n route now) s
  | added (n : Nat) (route : RouteUpdate) (now : Timestamp) (begun : List Process) :
      s.shared.writer.isRunning = true →
      Stepped s (.addRoute n route now) ⟨s.shared.accept route now, s.suspended ++ begun⟩
  | flush (n : Nat) (begun : List Process) :
      Stepped s (.flush n) ⟨s.shared, s.suspended ++ begun⟩
  | stop (n : Nat) : Stepped s (.stop n) (enterStop n s)
  | goesOn {a : Label} {before after : List Process} {p : Process} {c : Clocked}
      {p' : Option Process} : s.suspended = before ++ p :: after → GoesOn s.shared p c p' →
      Stepped s a ⟨c, before ++ (p'.toList ++ after)⟩

theorem stepped_go {next : Clocked → Process → Option (Clocked × Option Process)}
    (hnext : ∀ c p c' p', next c p = some (c', p') → GoesOn c p c' p') {s s' : State} {k : Nat}
    {a : Label} (h : s.go next k = some s') : Stepped s a s' := by
  obtain ⟨before, p, after, c, p', hs, -, hgo, rfl⟩ := go_split h
  exact .goesOn hs (hnext _ _ _ _ hgo)

theorem step_stepped {s s' : State} {a : Label} (h : step s a = some s') : Stepped s a s' := by
  cases a with
  | start =>
    cases h
    exact .start
  | addRoute n route now =>
    simp only [step, enterAddRoute] at h
    split at h
    · cases h
    · by_cases hrunning : s.shared.writer.isRunning = false
      · rw [if_pos hrunning] at h
        cases h
        exact .rejected n route now hrunning
      · rw [if_neg hrunning] at h
        cases h
        exact .added n route now _ (Bool.eq_true_of_not_eq_false hrunning)
  | flush n =>
    simp only [step] at h
    split at h
    · cases h
    · cases h
      exact .flush n _
  | stop n =>
    simp only [step] at h
    split at h
    · cases h
    · cases h
      exact .stop n
  | wake k now => exact stepped_go (fun _ _ _ _ => wake_goesOn) h
  | read k => exact stepped_go (fun _ _ _ _ => takeRecords_goesOn) h
  | fail k => exact stepped_go (fun _ _ _ _ => raiseError_goesOn) h
  | cancel k landed => exact stepped_go (fun _ _ _ _ => raiseCancelled_goesOn) h

/-! ## The start time -/

theorem armed_same {c c' : Clocked} (harrived : c'.arrived = c.arrived)
    (hbatch : c'.writer.batch = c.writer.batch)
    (hstart : c'.writer.batchStartTime = c.writer.batchStartTime) (hc : Armed c) : Armed c' := by
  obtain ⟨earlier, waiting, hsplit, hroutes, htime⟩ := hc
  exact ⟨earlier, waiting, harrived.trans hsplit, hbatch.trans hroutes, hstart.trans htime⟩

/-- The start time is set with the first route and stays with the ones after it. -/
theorem armed_accept (route : RouteUpdate) (now : Timestamp) {c : Clocked} (hc : Armed c) :
    Armed (c.accept route now) := by
  obtain ⟨earlier, waiting, hsplit, hroutes, htime⟩ := hc
  refine ⟨earlier, waiting ++ [(routeTuple route, now)], ?_, ?_, ?_⟩
  · show c.arrived ++ [(routeTuple route, now)] = _
    rw [hsplit, List.append_assoc]
  · show c.writer.batch ++ [routeTuple route] = _
    rw [hroutes, List.map_append, List.map_singleton]
  · show c.writer.batchStartTime.or (some now) = _
    rw [htime]
    cases waiting with
    | nil => rfl
    | cons first waiting => rfl

theorem armed_emptied {c c' : Clocked} (h : Emptied c.writer c'.writer) : Armed c' :=
  ⟨c'.arrived, [], (List.append_nil _).symm, h.batch, h.batchStartTime⟩

theorem armed_step {s s' : State} {a : Label} (h : step s a = some s') (hs : Armed s.shared) :
    Armed s'.shared := by
  cases step_stepped h with
  | start => exact armed_same rfl rfl rfl hs
  | rejected => exact hs
  | added n route now => exact armed_accept route now hs
  | flush => exact hs
  | stop => exact armed_same rfl rfl rfl hs
  | goesOn _ hgoes =>
    rcases hgoes.writer with hwriter | hemptied
    · exact armed_same hgoes.arrived (congrArg Writer.batch hwriter)
        (congrArg Writer.batchStartTime hwriter) hs
    · exact armed_emptied hemptied

theorem armed_initial (batchSize : Nat) (batchTimeout : Timestamp) :
    Armed (initial batchSize batchTimeout).shared :=
  ⟨[], [], rfl, rfl, rfl⟩

theorem batchStartTime_none_iff {c : Clocked} (hc : Armed c) :
    c.writer.batchStartTime = none ↔ c.writer.batch = [] := by
  obtain ⟨earlier, waiting, -, hroutes, htime⟩ := hc
  rw [hroutes, htime, Option.map_eq_none_iff, List.head?_eq_none_iff, List.map_eq_nil_iff]

/-! ## After `stop` -/

theorem busy_iff {owner : Owner} {s : State} :
    busy owner s = true ↔ ∃ p ∈ s.suspended, p.owner = owner := by
  simp only [busy, List.any_eq_true, beq_iff_eq]

/-- A stopped writer takes no route, and its batch is as before or empty. -/
theorem step_stopped {s s' : State} {a : Label} (h : step s a = some s') (ha : a ≠ .start)
    (hs : s.shared.writer.isRunning = false) :
    s'.shared.writer.isRunning = false ∧
      (s'.shared.writer.batch = s.shared.writer.batch ∨ s'.shared.writer.batch = []) := by
  cases step_stepped h with
  | start => exact absurd rfl ha
  | rejected => exact ⟨hs, .inl rfl⟩
  | added n route now begun hrunning => exact absurd (hs.symm.trans hrunning) Bool.false_ne_true
  | flush => exact ⟨hs, .inl rfl⟩
  | stop => exact ⟨rfl, .inl rfl⟩
  | goesOn _ hgoes =>
    rcases hgoes.writer with hwriter | hemptied
    · exact ⟨(congrArg Writer.isRunning hwriter).trans hs, .inl (congrArg Writer.batch hwriter)⟩
    · exact ⟨hemptied.isRunning.trans hs, .inr hemptied.batch⟩

/-- A `stop` that is under way stays so until it leaves the batch empty. -/
theorem step_stopping {s s' : State} {a : Label} (h : step s a = some s') {n : Nat}
    (hn : busy (.stop n) s = true) :
    busy (.stop n) s' = true ∨ s'.shared.writer.batch = [] := by
  obtain ⟨q, hq, hqn⟩ := busy_iff.mp hn
  cases step_stepped h with
  | goesOn hsuspended hgoes =>
    rw [hsuspended, mem_before_after] at hq
    rcases hq with rfl | hother
    · rcases hgoes.stopping n hqn with ⟨r, hr, hrn⟩ | hbatch
      · exact .inl (busy_iff.mpr ⟨r, mem_next.mpr (.inl hr), hrn⟩)
      · exact .inr hbatch
    · exact .inl (busy_iff.mpr ⟨q, mem_next.mpr (.inr hother), hqn⟩)
  | rejected => exact .inl hn
  | _ => exact .inl (busy_iff.mpr ⟨q, List.mem_append_left _ hq, hqn⟩)

/-- `stop` has been called, and is under way unless the batch is empty. -/
def Stopping (n : Nat) (s : State) : Prop :=
  s.shared.writer.isRunning = false ∧ (busy (.stop n) s = true ∨ s.shared.writer.batch = [])

def Stopped (s : State) : Prop :=
  s.shared.writer.isRunning = false ∧ s.shared.writer.batch = []

theorem stopping_enterStop (n : Nat) (s : State) : Stopping n (enterStop n s) := by
  have hbegun : ∀ p, (∃ q ∈ p, Process.owner q = .stop n) →
      busy (.stop n) ⟨s.shared.setRunning false, s.suspended ++ Option.toList p⟩ = true := by
    rintro p ⟨q, hq, hqn⟩
    exact busy_iff.mpr ⟨q, List.mem_append_right _ (Option.mem_toList.mpr hq), hqn⟩
  refine ⟨rfl, ?_⟩
  have hflush := enterFlush_stop n (s.shared.setRunning false)
  rw [enterStop]
  split
  · exact hflush.imp_left (hbegun _)
  · split
    · exact hflush.imp_left (hbegun _)
    · exact .inl (hbegun _ ⟨_, rfl, rfl⟩)

theorem stopping_stop {n : Nat} {s s' : State} (h : step s (.stop n) = some s') :
    Stopping n s' := by
  simp only [step] at h
  split at h
  · cases h
  · cases h
    exact stopping_enterStop n s

theorem stopping_step {n : Nat} {s s' : State} {a : Label} (ha : a ≠ .start)
    (h : step s a = some s') (hs : Stopping n s) : Stopping n s' := by
  obtain ⟨hrunning, hbusy | hbatch⟩ := hs
  · exact ⟨(step_stopped h ha hrunning).1, step_stopping h hbusy⟩
  · obtain ⟨hrunning', hsame | hempty⟩ := step_stopped h ha hrunning
    · exact ⟨hrunning', .inr (hsame.trans hbatch)⟩
    · exact ⟨hrunning', .inr hempty⟩

theorem stopped_step {s s' : State} {a : Label} (ha : a ≠ .start) (h : step s a = some s')
    (hs : Stopped s) : Stopped s' := by
  obtain ⟨hrunning, hsame | hempty⟩ := step_stopped h ha hs.1
  · exact ⟨hrunning, hsame.trans hs.2⟩
  · exact ⟨hrunning, hempty⟩

theorem enterAddRoute_stopped {s : State} (hs : s.shared.writer.isRunning = false) (n : Nat)
    (route : RouteUpdate) (now : Timestamp) :
    enterAddRoute n route now s =
      .error (.runtimeError "Batch writer is not running. Call start() first.") := by
  rw [enterAddRoute, if_pos hs]

/-- In every state the start time is that of the oldest route in the batch. After a `stop` that is
over, for as long as there is no `start`, the batch is empty and `add_route` raises. -/
theorem batch_timer (batchSize : Nat) (batchTimeout : Timestamp) {s : State}
    (h : Reachable step (initial batchSize batchTimeout) (fun _ => True) s) :
    ((s.shared.writer.batchStartTime = none ↔ s.shared.writer.batch = []) ∧
      ∃ earlier waiting, s.shared.arrived = earlier ++ waiting ∧
        s.shared.writer.batch = waiting.map Prod.fst ∧
        s.shared.writer.batchStartTime = waiting.head?.map Prod.snd) ∧
    ∀ n stopping during atEnd after later, step s (.stop n) = some stopping →
      (∀ a ∈ during, a ≠ .start) → run step stopping during = some atEnd →
      busy (.stop n) atEnd = false →
      (∀ a ∈ after, a ≠ .start) → run step atEnd after = some later →
      later.shared.writer.batch = [] ∧
      ∀ m route now,
        enterAddRoute m route now later =
          .error (.runtimeError "Batch writer is not running. Call start() first.") ∧
        ∀ s' ∈ step later (.addRoute m route now), s' = later := by
  have harmed : Armed s.shared :=
    reachable_keeps (p := fun s => Armed s.shared) (fun _ _ _ _ => armed_step)
      (armed_initial batchSize batchTimeout) h
  refine ⟨⟨batchStartTime_none_iff harmed, harmed⟩, ?_⟩
  intro n stopping during atEnd after later hstop hduring hrun hend hafter hlater
  have hbegun : Stopping n stopping := stopping_stop hstop
  have hending : Stopping n atEnd :=
    run_keeps (fun _ _ _ ha => stopping_step ha) (throughout_of_forall hduring stopping) hrun hbegun
  have hstopped : Stopped atEnd :=
    ⟨hending.1, hending.2.resolve_left (by rw [hend]; exact Bool.false_ne_true)⟩
  obtain ⟨hrunning, hbatch⟩ : Stopped later :=
    run_keeps (fun _ _ _ ha => stopped_step ha) (throughout_of_forall hafter atEnd) hlater hstopped
  refine ⟨hbatch, fun m route now => ?_⟩
  have hraises := enterAddRoute_stopped hrunning m route now
  refine ⟨hraises, fun s' hs' => ?_⟩
  simp only [step, hraises] at hs'
  split at hs'
  · cases hs'
  · exact (Option.some.inj hs').symm

/-- A route is added while the periodic task is asleep. -/
def beforeStop : List Label := [.start, .wake 0 0, .addRoute 0 (sampleRoute 10) 100]

/-- The periodic task ends, and the final flush gets no connection. -/
def duringStop : List Label := [.cancel 0 false, .wake 0 200, .fail 0]

theorem batch_timer_failed_stop :
    ∃ s stopping atEnd, run step (initial 1000 500) beforeStop = some s ∧
      step s (.stop 0) = some stopping ∧ run step stopping duringStop = some atEnd ∧
      s.shared.writer.batchStartTime = some 100 ∧
      (s.shared.writer.batchStartTime = none ↔ s.shared.writer.batch = []) ∧
      atEnd.shared.writer.batch = [] ∧
      enterAddRoute 1 (sampleRoute 11) 300 atEnd =
        .error (.runtimeError "Batch writer is not running. Call start() first.") := by
  refine ⟨_, _, _, rfl, rfl, rfl, rfl, ?_⟩
  obtain ⟨⟨hnone, _⟩, hstop⟩ := batch_timer 1000 500 ⟨beforeStop, fun _ _ => trivial, rfl⟩
  obtain ⟨hbatch, hraises⟩ :=
    hstop 0 _ duringStop _ [] _ rfl (by decide) rfl rfl (by decide) rfl
  exact ⟨hnone, hbatch, (hraises 1 (sampleRoute 11) 300).1⟩

end Pybmpmon.Database.BatchTimer
