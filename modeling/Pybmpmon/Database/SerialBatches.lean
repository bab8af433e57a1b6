import Pybmpmon.Database.BatchWriter

/-!
# Calls that do not overlap

The batch writer when every call runs to its end before the next one. The pool is traced:
the rows of each COPY and the arguments of each `update_route_state` are kept, and whether
a call has raised.
-/
namespace Pybmpmon.Database.SerialBatches

open Pybmpmon.Python Pybmpmon.Models.Route
open Pybmpmon.Database.RouteState Pybmpmon.Database.BatchWriter

structure Trace where
  copies : List (List RouteUpdatesRow)
  calls : List StateCall
  raised : Bool
  deriving DecidableEq, Repr

namespace Trace

def empty : Trace := ⟨[], [], false⟩

/-- A call that returns is kept, one that raises is noted. -/
def note (outcome : Except PyErr Unit) (keep : Trace → Trace) (t : Trace) : Trace :=
  match outcome with
  | .ok () => keep t
  | .error _ => { t with raised := true }

def copied (rows : List RouteUpdatesRow) (t : Trace) : Trace := { t with copies := t.copies ++ [rows] }

def called (p : StateCall) (t : Trace) : Trace := { t with calls := t.calls ++ [p] }

end Trace

variable {δ : Type}

/-- The pool, with its calls traced. -/
def traced (pool : Pool δ) : Pool (δ × Trace) where
  acquire := fun s =>
    ((pool.acquire s.1).1, (pool.acquire s.1).2, s.2.note (pool.acquire s.1).1 id)
  copyRecordsToTable := fun rows s =>
    ((pool.copyRecordsToTable rows s.1).1, (pool.copyRecordsToTable rows s.1).2,
      s.2.note (pool.copyRecordsToTable rows s.1).1 (Trace.copied rows))
  updateRouteState := fun p s =>
    ((pool.updateRouteState p s.1).1, (pool.updateRouteState p s.1).2,
      s.2.note (pool.updateRouteState p s.1).1 (Trace.called p))

/-- A call of `add_route`, a manual flush, or the periodic task waking up. -/
inductive Call where
  | addRoute (route : RouteUpdate) (now : Timestamp)
  | flush
  | tick (now : Timestamp)

def Call.route : Call → Option RouteTuple
  | addRoute route _ => some (routeTuple route)
  | flush | tick _ => none

/-- The writer and the traced database after a call. -/
def perform (pool : Pool δ) (s : Writer × δ × Trace) : Call → Writer × δ × Trace
  | .addRoute route now => (addRoute (traced pool) route now s.1 s.2).2
  | .flush => (flush (traced pool) s.1 s.2).2
  | .tick now => periodicRound (traced pool) now s.1 s.2

/-- The calls one after the other, on a writer that has been started. -/
def performAll (pool : Pool δ) (batchSize : Nat) (batchTimeout : Timestamp) (d : δ)
    (calls : List Call) :
    Writer × δ × Trace :=
  calls.foldl (perform pool) ((Writer.new batchSize batchTimeout).start, d, .empty)

/-- The arguments of `update_route_state`, as the columns of the row have them. -/
def rowCall (r : RouteUpdatesRow) : StateCall :=
  ⟨r.time, r.bmpPeerIp, r.bgpPeerIp, r.family, r.prefixCidr, r.nextHop, r.asPath, r.communities,
    r.extendedCommunities, r.med, r.localPref, r.isWithdrawn, r.policyStage, r.evpnRouteType,
    r.evpnRd, r.evpnEsi, r.macAddress⟩

/-- The routes added are written or in the batch, in order, and what the writer counts is what was
written. -/
structure Accounted (batchSize : Nat) (added : List RouteTuple) (w : Writer) (t : Trace) : Prop where
  inOrder : t.copies.flatten ++ w.batch.map copyRow = added.map copyRow
  sizes : ∀ rows ∈ t.copies, 1 ≤ rows.length ∧ rows.length ≤ batchSize
  applied : t.calls = t.copies.flatten.map rowCall
  routes : w.totalRoutesWritten = t.copies.flatten.length
  batches : w.totalBatchesWritten = t.copies.length

/-- So between two calls, on a writer that runs. -/
structure Settled (batchSize : Nat) (added : List RouteTuple) (s : Writer × δ × Trace) : Prop where
  accounted : Accounted batchSize added s.1 s.2.2
  bound : s.1.batch.length < batchSize
  running : s.1.isRunning = true
  size : s.1.batchSize = batchSize

/-! ## A flush without an error -/

/-- A traced call is kept, or noted as one that raised. -/
theorem note_cases (x : Except PyErr Unit × δ) (keep : Trace → Trace) (t : Trace) :
    (∃ d, (x.1, x.2, t.note x.1 keep) = (.ok (), d, keep t)) ∨
      ∃ e d, (x.1, x.2, t.note x.1 keep) = (.error e, d, { t with raised := true }) := by
  obtain ⟨outcome, d⟩ := x
  cases outcome with
  | ok u => exact .inl ⟨d, rfl⟩
  | error e => exact .inr ⟨e, d, rfl⟩

theorem acquire_cases (pool : Pool δ) (d : δ) (t : Trace) :
    (∃ d', (traced pool).acquire (d, t) = (.ok (), d', t)) ∨
      ∃ e d', (traced pool).acquire (d, t) = (.error e, d', { t with raised := true }) :=
  note_cases (pool.acquire d) id t

theorem copy_cases (pool : Pool δ) (rows : List RouteUpdatesRow) (d : δ) (t : Trace) :
    (∃ d', (traced pool).copyRecordsToTable rows (d, t) = (.ok (), d', t.copied rows)) ∨
      ∃ e d', (traced pool).copyRecordsToTable rows (d, t) =
        (.error e, d', { t with raised := true }) :=
  note_cases (pool.copyRecordsToTable rows d) (Trace.copied rows) t

theorem update_cases (pool : Pool δ) (p : StateCall) (d : δ) (t : Trace) :
    (∃ d', (traced pool).updateRouteState p (d, t) = (.ok (), d', t.called p)) ∨
      ∃ e d', (traced pool).updateRouteState p (d, t) = (.error e, d', { t with raised := true }) :=
  note_cases (pool.updateRouteState p d) (Trace.called p) t

/-- Without an error the loop has made one call for each route. -/
theorem updateStates_traced (pool : Pool δ) (batch : List RouteTuple) (d : δ) (t : Trace)
    (h : (updateStates (traced pool) batch (d, t)).2.2.raised = false) :
    t.raised = false ∧ ∃ d', updateStates (traced pool) batch (d, t) =
      (.ok (), d', { t with calls := t.calls ++ batch.map stateCall }) := by
  induction batch generalizing d t with
  | nil => exact ⟨h, d, by simp [updateStates]⟩
  | cons r batch ih =>
    rw [updateStates] at h ⊢
    rcases update_cases pool (stateCall r) d t with ⟨d₁, hcall⟩ | ⟨e, d₁, hcall⟩
    · rw [hcall] at h ⊢
      obtain ⟨hraised, d', hrest⟩ := ih d₁ (t.called (stateCall r)) h
      refine ⟨hraised, d', hrest.trans ?_⟩
      rw [Trace.called, List.append_assoc, List.map_cons, List.singleton_append]
    · rw [hcall] at h
      cases h

/-- Without an error a flush of a batch is one COPY of its rows and one call for each. -/
theorem flush_traced (pool : Pool δ) {w : Writer} (hbatch : w.batch ≠ []) (d : δ) (t : Trace)
    (h : (flush (traced pool) w (d, t)).2.2.2.raised = false) :
    t.raised = false ∧ ∃ d', flush (traced pool) w (d, t) =
      (.ok (), (w.countBatch w.batch.length).clear, d',
        { t with
          copies := t.copies ++ [w.batch.map copyRow]
          calls := t.calls ++ w.batch.map stateCall }) := by
  rcases acquire_cases pool d t with ⟨d₁, hacquire⟩ | ⟨e, d₁, hacquire⟩
  · rcases copy_cases pool (w.batch.map copyRow) d₁ t with ⟨d₂, hcopy⟩ | ⟨e, d₂, hcopy⟩
    · have hloop := updateStates_traced pool w.batch d₂ (t.copied (w.batch.map copyRow))
      cases hupdates : updateStates (traced pool) w.batch (d₂, t.copied (w.batch.map copyRow)) with
      | mk outcome s =>
        rw [hupdates] at hloop
        cases outcome with
        | error e =>
          rw [flush_not_updated hbatch hacquire hcopy hupdates] at h
          obtain ⟨-, d', hresult⟩ := hloop h
          cases hresult
        | ok u =>
          rw [flush_written hbatch hacquire hcopy hupdates] at h ⊢
          obtain ⟨hbefore, d', hresult⟩ := hloop h
          cases hresult
          exact ⟨hbefore, d', rfl⟩
    · rw [flush_not_copied hbatch hacquire hcopy] at h
      cases h
  · rw [flush_not_acquired hbatch hacquire] at h
    cases h

theorem flush_raised (pool : Pool δ) {w : Writer} {d : δ} {t : Trace}
    (h : (flush (traced pool) w (d, t)).2.2.2.raised = false) : t.raised = false := by
  by_cases hbatch : w.batch = []
  · rw [flush_empty _ hbatch] at h
    exact h
  · exact (flush_traced pool hbatch d t h).1

/-- What has raised stays noted. -/
theorem perform_raised (pool : Pool δ) {s : Writer × δ × Trace} {call : Call}
    (h : (perform pool s call).2.2.raised = false) : s.2.2.raised = false := by
  cases call with
  | flush => exact flush_raised pool h
  | tick now =>
    simp only [perform, periodicRound] at h
    split at h
    · exact flush_raised pool h
    · exact h
  | addRoute route now =>
    simp only [perform, addRoute] at h
    split at h
    · exact h
    · split at h
      · exact flush_raised pool h
      · exact h

/-! ## The account is kept -/

theorem Accounted.append {batchSize : Nat} {added : List RouteTuple} {w : Writer} {t : Trace}
    (h : Accounted batchSize added w t) (route : RouteUpdate) (now : Timestamp) :
    Accounted batchSize (added ++ [routeTuple route]) (w.append route now) t where
  inOrder := by
    rw [append_batch, List.map_append, ← List.append_assoc, h.inOrder, ← List.map_append]
  sizes := h.sizes
  applied := h.applied
  routes := h.routes
  batches := h.batches

/-- Writing the batch moves its routes from the batch to the rows. -/
theorem Accounted.written {batchSize : Nat} {added : List RouteTuple} {w : Writer} {t : Trace}
    (h : Accounted batchSize added w t) (hbatch : w.batch ≠ []) (hfits : w.batch.length ≤ batchSize) :
    Accounted batchSize added (w.countBatch w.batch.length).clear
      { t with
        copies := t.copies ++ [w.batch.map copyRow]
        calls := t.calls ++ w.batch.map stateCall } where
  inOrder := by
    rw [clear_batch, List.flatten_append, List.flatten_singleton, h.inOrder, List.map_nil,
      List.append_nil]
  sizes := by
    intro rows hrows
    rcases List.mem_append.mp hrows with hold | hnew
    · exact h.sizes rows hold
    · rw [List.mem_singleton.mp hnew, List.length_map]
      exact ⟨List.length_pos_iff.mpr hbatch, hfits⟩
  applied := by
    rw [h.applied, List.flatten_append, List.flatten_singleton, List.map_append, List.map_map]
    rfl
  routes := by
    rw [List.flatten_append, List.flatten_singleton, List.length_append, List.length_map, ← h.routes]
    rfl
  batches := by
    rw [List.length_append, List.length_singleton, ← h.batches]
    rfl

/-- A flush settles a writer whose batch has at most `batchSize` routes. -/
theorem flush_settles (pool : Pool δ) {batchSize : Nat} (hsize : 1 ≤ batchSize)
    {added : List RouteTuple} {w : Writer} {t : Trace} (d : δ) (h : Accounted batchSize added w t)
    (hfits : w.batch.length ≤ batchSize) (hrunning : w.isRunning = true)
    (hbatchSize : w.batchSize = batchSize)
    (hclean : (flush (traced pool) w (d, t)).2.2.2.raised = false) :
    Settled batchSize added (flush (traced pool) w (d, t)).2 := by
  by_cases hbatch : w.batch = []
  · rw [flush_empty _ hbatch]
    have hbound : w.batch.length < batchSize := by
      rw [hbatch]
      exact hsize
    exact ⟨h, hbound, hrunning, hbatchSize⟩
  · obtain ⟨-, d', hflush⟩ := flush_traced pool hbatch d t hclean
    rw [hflush]
    exact ⟨h.written hbatch hfits, hsize, hrunning, hbatchSize⟩

/-- The step lemma: each call, run to its end, settles the writer again. -/
theorem perform_settles (pool : Pool δ) {batchSize : Nat} (hsize : 1 ≤ batchSize)
    {added : List RouteTuple} {s : Writer × δ × Trace} (call : Call) (h : Settled batchSize added s)
    (hclean : (perform pool s call).2.2.raised = false) :
    Settled batchSize (added ++ call.route.toList) (perform pool s call) := by
  obtain ⟨w, d, t⟩ := s
  cases call with
  | flush =>
    rw [Call.route, Option.toList_none, List.append_nil]
    exact flush_settles pool hsize d h.accounted (Nat.le_of_lt h.bound) h.running h.size hclean
  | tick now =>
    rw [Call.route, Option.toList_none, List.append_nil]
    simp only [perform, periodicRound] at hclean ⊢
    split at hclean
    · rename_i htime
      rw [if_pos htime]
      exact flush_settles pool hsize d h.accounted (Nat.le_of_lt h.bound) h.running h.size hclean
    · rename_i htime
      rw [if_neg htime]
      exact h
  | addRoute route now =>
    have hrun : ¬w.isRunning = false := by
      rw [show w.isRunning = true from h.running]
      decide
    have hlength : (w.append route now).batch.length = w.batch.length + 1 := by
      rw [append_batch, List.length_append, List.length_singleton]
    have hbound : w.batch.length < batchSize := h.bound
    have happended := h.accounted.append route now
    rw [Call.route, Option.toList_some]
    simp only [perform, addRoute, if_neg hrun] at hclean ⊢
    split at hclean
    · rename_i hfull
      rw [if_pos hfull]
      exact flush_settles pool hsize d happended (by omega) h.running h.size hclean
    · rename_i hfull
      rw [if_neg hfull]
      have hroom : ¬batchSize ≤ (w.append route now).batch.length := by
        intro hle
        apply hfull
        rw [Writer.isFull, decide_eq_true_iff, append_batchSize,
          show w.batchSize = batchSize from h.size]
        exact hle
      exact ⟨happended, Nat.not_le.mp hroom, h.running, h.size⟩

/-- The run lemma: what a run without an error leaves after each of its calls. -/
theorem performAll_settles (pool : Pool δ) {batchSize : Nat} (hsize : 1 ≤ batchSize)
    (batchTimeout : Timestamp) (d : δ) (calls : List Call)
    (hclean : (performAll pool batchSize batchTimeout d calls).2.2.raised = false) :
    ∀ done, done <+: calls →
      Settled batchSize (done.filterMap Call.route)
        (performAll pool batchSize batchTimeout d done) := by
  induction calls using List.reverseRecOn with
  | nil =>
    intro done hdone
    rw [List.prefix_nil.mp hdone]
    exact ⟨⟨rfl, nofun, rfl, rfl, rfl⟩, hsize, rfl, rfl⟩
  | append_singleton calls call ih =>
    have hlast : performAll pool batchSize batchTimeout d (calls ++ [call]) =
        perform pool (performAll pool batchSize batchTimeout d calls) call := by
      rw [performAll, List.foldl_append]
      rfl
    rw [hlast] at hclean
    have hbefore := perform_raised pool hclean
    have hsettled := ih hbefore calls List.prefix_rfl
    have hstep := perform_settles pool hsize call hsettled hclean
    intro done hdone
    rcases List.prefix_concat_iff.mp hdone with rfl | hdone
    · rw [hlast, List.filterMap_append]
      exact hstep
    · exact ih hbefore done hdone

/-- After every call of a run without an error the rows copied and then the batch are the routes
added, in their order; the batch is not full; a COPY has between 1 and `batchSize` rows; each
row has had its call, in the same order; and the counters say how many rows and COPYs there were. -/
theorem serial_batches (pool : Pool δ) {batchSize : Nat} (hsize : 1 ≤ batchSize)
    (batchTimeout : Timestamp) (d : δ) {calls : List Call}
    (hclean : (performAll pool batchSize batchTimeout d calls).2.2.raised = false) {done : List Call}
    (hdone : done <+: calls) :
    Accounted batchSize (done.filterMap Call.route) (performAll pool batchSize batchTimeout d done).1
        (performAll pool batchSize batchTimeout d done).2.2 ∧
      (performAll pool batchSize batchTimeout d done).1.batch.length < batchSize := by
  have hsettled := performAll_settles pool hsize batchTimeout d calls hclean done hdone
  exact ⟨hsettled.accounted, hsettled.bound⟩

/-- A pool that takes everything. -/
def accepting : Pool Unit :=
  ⟨fun _ => (.ok (), ()), fun _ _ => (.ok (), ()), fun _ _ => (.ok (), ())⟩

/-- A full batch, a timed one and a route that waits. -/
def sampleCalls : List Call :=
  [.addRoute (sampleRoute 10) 0, .addRoute (sampleRoute 20) 100, .addRoute (sampleRoute 30) 200,
    .tick 300, .tick 700, .addRoute (sampleRoute 40) 800]

theorem serial_batches_two :
    Accounted 2 (sampleCalls.filterMap Call.route) (performAll accepting 2 500 () sampleCalls).1
        (performAll accepting 2 500 () sampleCalls).2.2 ∧
      (performAll accepting 2 500 () sampleCalls).1.batch.length < 2 :=
  serial_batches accepting (by decide) 500 () (by decide) List.prefix_rfl

end Pybmpmon.Database.SerialBatches
