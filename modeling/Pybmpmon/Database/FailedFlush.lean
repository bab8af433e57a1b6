import Pybmpmon.Database.Postgres

/-!
# A flush that fails

The COPY and each state update commit on their own, and `finally` empties the batch on
every way out. What a failing flush leaves depends on where it failed; the batch is
gone in every case.
-/
namespace Pybmpmon.Database.FailedFlush

open Pybmpmon.Python Pybmpmon.Models.Route
open Pybmpmon.Database.RouteState Pybmpmon.Database.BatchWriter Pybmpmon.Database.Postgres

structure Tables where
  routeUpdates : List RouteUpdatesRow
  routeState : Table
  deriving DecidableEq, Repr

/-- Neither table shows an effect, and every route of the batch is still held. -/
structure ChangesNothing {δ : Type} (tables : δ → Tables) (w : Writer) (d : δ) (w' : Writer)
    (d' : δ) : Prop where
  tables : tables d' = tables d
  held : ∀ t ∈ w.batch, t ∈ w'.batch

variable {δ : Type}

/-- A flush that raises had a batch. -/
theorem batch_ne_nil_of_error {pool : Pool δ} {w : Writer} {d : δ} {e : PyErr}
    (h : (flush pool w d).1 = .error e) : w.batch ≠ [] := by
  intro hempty
  rw [flush_empty pool hempty] at h
  cases h

/-- Whatever the flush does, no route is left in the batch. -/
theorem flush_batch (pool : Pool δ) (w : Writer) (d : δ) : (flush pool w d).2.1.batch = [] := by
  by_cases h : w.batch = []
  · rw [flush_empty pool h, h]
  · rw [flush_nonempty pool h, clear_batch]

/-- No flush that raises changes nothing, wherever the database error was raised. -/
theorem failing_flush_changes (pool : Pool δ) (tables : δ → Tables) (w : Writer) (d : δ)
    {e : PyErr} (h : (flush pool w d).1 = .error e) :
    ¬ ChangesNothing tables w d (flush pool w d).2.1 (flush pool w d).2.2 := by
  rintro ⟨_, hheld⟩
  obtain ⟨t, ht⟩ := List.exists_mem_of_ne_nil _ (batch_ne_nil_of_error h)
  have hgone := hheld t ht
  rw [flush_batch] at hgone
  cases hgone

/-! ## PostgreSQL with some calls that fail -/

/-- The tables, and how many calls the database has had. -/
structure Server where
  tables : Tables
  calls : Nat
  deriving DecidableEq, Repr

/-- A call that `fails` selects raises and has no effect; the others are answered by PostgreSQL. -/
def postgres (fails : Nat → Bool) : Pool Server where
  acquire := fun d =>
    (if fails d.calls then .error .postgresError else .ok (), { d with calls := d.calls + 1 })
  copyRecordsToTable := fun rows d =>
    let d' := { d with calls := d.calls + 1 }
    if fails d.calls then (.error .postgresError, d')
    else
      committed (fun rows => { d' with tables := { d.tables with routeUpdates := rows } }) d'
        (copyRecords rows d.tables.routeUpdates)
  updateRouteState := fun p d =>
    let d' := { d with calls := d.calls + 1 }
    if fails d.calls then (.error .postgresError, d')
    else
      committed (fun t => { d' with tables := { d.tables with routeState := t } }) d'
        (selectUpdateRouteState p d.tables.routeState)

/-! ## One route -/

/-- The connection is not to be had. -/
theorem failing_flush_changes_acquire :
    ¬ ChangesNothing Server.tables
      ((Writer.new 1000 500).start.append (sampleRoute 10) 0) ⟨⟨[], []⟩, 0⟩
      (flush (postgres (· == 0)) ((Writer.new 1000 500).start.append (sampleRoute 10) 0)
        ⟨⟨[], []⟩, 0⟩).2.1
      (flush (postgres (· == 0)) ((Writer.new 1000 500).start.append (sampleRoute 10) 0)
        ⟨⟨[], []⟩, 0⟩).2.2 :=
  failing_flush_changes (postgres (· == 0)) Server.tables _ _ (e := .postgresError) (by decide)

/-- The state update fails: the row is in `route_updates`, not in `route_state`, and
the batch is empty. -/
theorem failing_update_changes :
    let w := (Writer.new 1000 500).start.append (sampleRoute 10) 0
    let after := flush (postgres (· == 2)) w ⟨⟨[], []⟩, 0⟩
    after.1 = .error .postgresError ∧
      after.2.2.tables = ⟨[copyRow (routeTuple (sampleRoute 10))], []⟩ ∧ after.2.1.batch = [] ∧
      ¬ ChangesNothing Server.tables w ⟨⟨[], []⟩, 0⟩ after.2.1 after.2.2 := by
  refine ⟨by decide, by decide, by decide, ?_⟩
  rintro ⟨htables, _⟩
  revert htables
  decide

end Pybmpmon.Database.FailedFlush
