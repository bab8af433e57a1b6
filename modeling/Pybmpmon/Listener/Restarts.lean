import Pybmpmon.Listener.Ledger

/-!
# The program started again and again

The tables outlive the program, and nothing else of it does. On a signal `run_listener`
stops the batch writer, whose last flush writes what waits; when the program is killed
what waits is gone. The next start finds the tables as they were left. The program ends
between two messages.
-/
namespace Pybmpmon.Listener.Restarts

open Pybmpmon.Lib.Batching Pybmpmon.Lib.Transition Pybmpmon.Python Pybmpmon.Models.Route
open Pybmpmon.Database.BatchWriter
open Pybmpmon.Listener.RunListener Pybmpmon.Listener.Ledger
open Pybmpmon.Listener.Records (routerA routerB)

inductive Ending where
  | signal
  | kill

namespace Ending

/-- The tables as the next start finds them. -/
def leaves (l : BMPListener) : Ending → RunListener.Database
  | .signal => l.stop
  | .kill => l.database

/-- The last batch, when there is a last flush. -/
def written (l : BMPListener) : Ending → List (List RouteUpdatesRow)
  | .signal => [l.batchWriter.batch.map copyRow]
  | .kill => []

/-- The records in the batch that nothing writes any more. -/
def lost (l : BMPListener) : Ending → List RouteUpdatesRow
  | .signal => []
  | .kill => l.batchWriter.batch.map copyRow

end Ending

/-- The status of a program that is ended by a signal: what the last flush raises leaves `run_listener`, and
`main` exits with 1. -/
def exitStatus (l : BMPListener) : Nat :=
  match (flush pool { l.batchWriter with isRunning := false } l.database).1 with
  | .ok _ => 0
  | .error _ => 1

/-- The program from a start to its end. -/
structure Life where
  batchSize : Nat
  batchTimeout : Timestamp
  labels : List RunListener.Label
  ending : Ending

/-- One life after the other: the tables in the end, and the last state of each life. -/
def lives (found : RunListener.Database) : List Life → Option (RunListener.Database × List (Life × World))
  | [] => some (found, [])
  | life :: later => do
      let w ← run step (.startedOn found life.batchSize life.batchTimeout) life.labels
      let (d, lived) ← lives (life.ending.leaves w.listener) later
      return (d, (life, w) :: lived)

/-- The messages of all the lives that were handed to their handlers. -/
def handled (lived : List (Life × World)) : List Message := lived.flatMap fun p => messages p.2.log

theorem handled_cons (p : Life × World) (lived : List (Life × World)) :
    handled (p :: lived) = messages p.2.log ++ handled lived := List.flatMap_cons ..

/-! ## One life -/

/-- What a life adds to `route_updates`: the batches taken of the start of the records of each message, and
nothing but records its messages ask for, in their order. When no message asks for two and the records fit,
all of them but those that are lost with the batch. -/
structure Stored (p : Life × World) (part : List RouteUpdatesRow) : Prop where
  inBatches : ∃ queued taken, List.Forall₂ (fun start records => start <+: records) queued
      ((messages p.2.log).map recordsOf) ∧
    queued.flatten = taken.flatten ++ p.2.listener.batchWriter.batch.map copyRow ∧
    (cut queued ((messages p.2.log).map recordsOf) ≤
      taken.countP fun batch => batch.length = capacity p.1.batchSize) ∧
    part = (taken ++ p.1.ending.written p.2.listener).flatMap copied
  sublist : part.Sublist (rowsOf (messages p.2.log))
  single : Single (messages p.2.log) →
    part ++ p.1.ending.lost p.2.listener = rowsOf (messages p.2.log)
  lost : (p.1.ending.lost p.2.listener).length < capacity p.1.batchSize
  status : exitStatus p.2.listener = 0 ↔ p.2.listener.batchWriter.batch = []

/-- The tables at the end of a life, from those at its start. -/
structure Lived (found : RunListener.Database) (p : Life × World) (part : List RouteUpdatesRow) : Prop where
  stored : Stored p part
  routeUpdates : (p.1.ending.leaves p.2.listener).routeUpdates = found.routeUpdates ++ part
  routeState : (p.1.ending.leaves p.2.listener).routeState = found.routeState
  peers : (p.1.ending.leaves p.2.listener).peerTables =
    (messages p.2.log).foldl peersAfter found.peerTables

theorem exitStatus_eq_zero (l : BMPListener) : exitStatus l = 0 ↔ l.batchWriter.batch = [] := by
  rw [exitStatus]
  by_cases hbatch : l.batchWriter.batch = []
  · rw [flush_empty pool (w := { l.batchWriter with isRunning := false }) hbatch]
    exact iff_of_true rfl hbatch
  · rw [flush_raises (w := { l.batchWriter with isRunning := false }) hbatch]
    exact iff_of_false Nat.one_ne_zero hbatch

variable {found d : RunListener.Database}

theorem life_lived {life : Life} {w : World}
    (hrun : run step (.startedOn found life.batchSize life.batchTimeout) life.labels = some w) :
    ∃ part, Lived found (life, w) part := by
  obtain ⟨b, h⟩ := recorded_startedOn hrun
  obtain ⟨batchSize, batchTimeout, labels, ending⟩ := life
  have hkept : b.kept.Sublist (rowsOf (messages w.log)) := by
    rw [rowsOf, List.flatMap_def]
    exact h.batched.kept_sublist (capacity_pos batchSize)
  have htaken : (b.taken.flatMap copied).Sublist b.taken.flatten := by
    rw [← List.flatMap_id]
    exact List.Sublist.flatMap_right b.taken fun batch _ => copied_sublist batch
  obtain ⟨queued, hqueued, hqueue, hcut⟩ := h.batched.parts (capacity_pos batchSize)
  rw [Batches.kept, ← h.holds.waiting] at hqueue
  cases ending with
  | signal =>
    have hwritten : w.listener.stop.routeUpdates =
        found.routeUpdates ++ (b.taken.flatMap copied ++ copied b.waiting) := by
      rw [h.stop, List.append_assoc]
    have hstate : w.listener.stop.routeState = found.routeState := by rw [h.stop]
    have hpeers : w.listener.stop.peerTables = (messages w.log).foldl peersAfter found.peerTables := by
      rw [h.stop]
    refine ⟨b.taken.flatMap copied ++ copied b.waiting, ⟨?_, ?_, ?_, ?_, ?_⟩, hwritten, hstate, hpeers⟩
    · refine ⟨queued, b.taken, hqueued, hqueue.symm, hcut, ?_⟩
      rw [Ending.written, List.flatMap_append, List.flatMap_singleton, h.holds.waiting]
    · exact (htaken.append (copied_sublist b.waiting)).trans hkept
    · intro hsingle
      have hall := congrArg Database.routeUpdates (h.single hsingle).2
      rw [hwritten] at hall
      exact (List.append_nil _).trans (List.append_cancel_left hall)
    · exact capacity_pos batchSize
    · exact exitStatus_eq_zero w.listener
  | kill =>
    refine ⟨b.taken.flatMap copied, ⟨?_, ?_, ?_, ?_, ?_⟩, h.holds.routeUpdates, h.holds.routeState, h.peers⟩
    · refine ⟨queued, b.taken, hqueued, hqueue.symm, hcut, ?_⟩
      rw [Ending.written, List.append_nil]
    · exact (htaken.trans (List.sublist_append_left _ _)).trans hkept
    · intro hsingle
      have hall := (h.single hsingle).1
      rw [h.holds.routeUpdates, List.append_assoc] at hall
      exact List.append_cancel_left hall
    · show (w.listener.batchWriter.batch.map copyRow).length < capacity batchSize
      rw [h.holds.waiting]
      exact h.room
    · exact exitStatus_eq_zero w.listener

/-! ## One life after the other -/

theorem lives_lived {history : List Life} {lived : List (Life × World)}
    (h : lives found history = some (d, lived)) :
    d.routeState = found.routeState ∧ d.peerTables = (handled lived).foldl peersAfter found.peerTables ∧
      ∃ parts, List.Forall₂ Stored lived parts ∧ d.routeUpdates = found.routeUpdates ++ parts.flatten := by
  induction history generalizing found lived with
  | nil =>
    cases h
    exact ⟨rfl, rfl, [], .nil, (List.append_nil _).symm⟩
  | cons life later ih =>
    obtain ⟨w, hrun, h⟩ := Option.bind_eq_some_iff.mp h
    obtain ⟨⟨d', lived'⟩, hlater, h⟩ := Option.bind_eq_some_iff.mp h
    cases h
    obtain ⟨part, hlived⟩ := life_lived hrun
    obtain ⟨hstate, hpeers, parts, hstored, hupdates⟩ := ih hlater
    refine ⟨hstate.trans hlived.routeState, ?_, part :: parts, .cons hlived.stored hstored, ?_⟩
    · rw [hpeers, hlived.peers, handled_cons, List.foldl_append]
    · rw [hupdates, hlived.routeUpdates, List.flatten_cons, List.append_assoc]

theorem lives_fst {history : List Life} {lived : List (Life × World)}
    (h : lives found history = some (d, lived)) : lived.map Prod.fst = history := by
  induction history generalizing found lived with
  | nil =>
    cases h
    rfl
  | cons life later ih =>
    obtain ⟨w, _, h⟩ := Option.bind_eq_some_iff.mp h
    obtain ⟨⟨d', lived'⟩, hlater, h⟩ := Option.bind_eq_some_iff.mp h
    cases h
    rw [List.map_cons, ih hlater]

theorem single_of_subset {ms ms' : List Message} (h : Single ms') (hsub : ms ⊆ ms') : Single ms where
  one := fun m hm => h.one m (hsub hm)
  fits := fun r hr => by
    obtain ⟨m, hm, hr⟩ := List.mem_flatMap.mp hr
    exact h.fits r (List.mem_flatMap.mpr ⟨m, hsub hm, hr⟩)

/-- Lives that are ended by signals lose nothing. -/
theorem parts_all {lived : List (Life × World)} {parts : List (List RouteUpdatesRow)}
    (h : List.Forall₂ Stored lived parts) (hsignal : ∀ life ∈ lived.map Prod.fst, life.ending = .signal)
    (hsingle : Single (handled lived)) : parts.flatten = rowsOf (handled lived) := by
  induction h with
  | nil => rfl
  | @cons p part lived parts hstored _ ih =>
    have hall := hstored.single (single_of_subset hsingle (List.subset_append_left _ _))
    rw [hsignal p.1 List.mem_cons_self, Ending.lost, List.append_nil] at hall
    rw [List.flatten_cons, hall, ih (fun life hlife => hsignal life (List.mem_cons_of_mem _ hlife))
      (single_of_subset hsingle (List.subset_append_right _ _)), handled_cons, rowsOf, rowsOf, rowsOf,
      List.flatMap_append]

/-- However often the program is started again, ended by a signal or killed: the tables of the routers are
what all the handled messages make of them, `route_state` is empty, and `route_updates` is what each life
stores, one after the other; a life that is killed loses at most what waits in its batch. When every life is
ended by a signal and no message has two routes, the tables are those of a single life. -/
theorem tables_outlive {history : List Life} {lived : List (Life × World)}
    (h : lives .empty history = some (d, lived)) :
    lived.map Prod.fst = history ∧ d.routeState = [] ∧
      d.peerTables = (handled lived).foldl peersAfter .empty ∧
      (∃ parts, List.Forall₂ Stored lived parts ∧ d.routeUpdates = parts.flatten) ∧
      ((∀ life ∈ history, life.ending = .signal) → Single (handled lived) → d = ledger (handled lived)) := by
  have hfst := lives_fst h
  obtain ⟨hstate, hpeers, parts, hstored, hupdates⟩ := lives_lived h
  refine ⟨hfst, hstate, hpeers, ⟨parts, hstored, hupdates⟩, ?_⟩
  intro hsignal hsingle
  rw [← hfst] at hsignal
  have hall : d.routeUpdates = rowsOf (handled lived) := hupdates.trans (parts_all hstored hsignal hsingle)
  have htables : d = ⟨d.routeUpdates, d.routeState, d.peerTables⟩ := rfl
  rw [htables, hall, hstate, hpeers]
  exact ledgerOn_empty (handled lived)

/-- The program is killed and started again. -/
def killedOnce : List Life :=
  [⟨1000, 500, wokenBetween, .kill⟩, ⟨1000, 500, wokenBetween, .signal⟩]

theorem tables_outlive_killed :
    let r := (lives .empty killedOnce).get (by decide +kernel)
    r.2.map Prod.fst = killedOnce ∧ r.1.routeState = [] ∧
      r.1.peerTables = (handled r.2).foldl peersAfter .empty ∧
      (∃ parts, List.Forall₂ Stored r.2 parts ∧ r.1.routeUpdates = parts.flatten) ∧
      ((∀ life ∈ killedOnce, life.ending = .signal) → Single (handled r.2) → r.1 = ledger (handled r.2)) := by
  intro r
  have hr : lives .empty killedOnce = some r := (Option.some_get _).symm
  clear_value r
  exact tables_outlive hr

end Pybmpmon.Listener.Restarts
