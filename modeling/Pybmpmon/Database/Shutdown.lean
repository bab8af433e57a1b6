import Pybmpmon.Database.Coherence

/-!
# Stopping the batch writer

`BatchWriter.stop`: the periodic task is cancelled at the await it is suspended in, the
flush it may be in ends, and what is then in the batch is flushed. The cancelled flush
empties the batch on its way out, so the final flush finds the routes only when the
task was not inside `flush`.
-/
namespace Pybmpmon.Database.Shutdown

open Pybmpmon.Lib.Transition Pybmpmon.Python Pybmpmon.Models.Route
open Pybmpmon.Database.BatchWriter Pybmpmon.Database.Interleaving Pybmpmon.Database.Coherence

/-- `flush_task.cancel()` and the await of the task. A task that is asleep ends at once; one
that is inside `flush` ends when the flush has released its connection. -/
def awaitCancelled (landed : Bool) (s : State) : Option State :=
  if s.suspended.length = 0 then some s
  else (step s (.cancel 0 landed)).bind fun s =>
    if s.suspended.length = 0 then some s else step s (.resume 0)

/-- `stop`, when no flush is under way but the one the periodic task may be in. -/
def stop (landed : Bool) (s : State) : Option State :=
  (step s .stop).bind fun s => (awaitCancelled landed s).bind fun s =>
    (step s (.flush 0)).bind fun flushing =>
      if flushing.suspended.length = 0 then some flushing
      else run step flushing (flushSteps s.shared.writer.batch.length)

/-- The routes accepted since a flush last ran to its end, which are those of the newest list,
are written once and applied. -/
structure LosesNothing (s s' : State) : Prop where
  once : ((s'.shared.copies.filter fun c => c.list = s.shared.current).flatMap Copy.rows).Perm
    s.shared.unflushed
  applied : ∀ i < s.shared.unflushed.length, (s.shared.current, i) ∈ s'.shared.applied

/-- No flush is under way, or there is nothing in the batch, or the flush has only its connection
to release and its COPY wrote every route that is in the batch by now. -/
def StopsSafely (s : State) : Prop :=
  s.suspended = [] ∨ s.shared.writer.batch = [] ∨
    ∃ f ∈ s.suspended, f.point = .releasing ∧
      ⟨s.shared.current, s.shared.writer.batch⟩ ∈ s.shared.copies

instance (s : State) : Decidable (StopsSafely s) :=
  inferInstanceAs (Decidable (s.suspended = [] ∨ s.shared.writer.batch = [] ∨
    ∃ f ∈ s.suspended, f.point = .releasing ∧
      ⟨s.shared.current, s.shared.writer.batch⟩ ∈ s.shared.copies))

/-! ## What the stop does -/

/-- Wherever it is cancelled, the flush commits no COPY any more and empties the batch. -/
theorem awaitCancelled_flush (landed : Bool) (shared : Shared) (f : Flush) :
    ∃ applied, (landed = false → applied = shared.applied) ∧
      (∀ a ∈ shared.applied, a ∈ applied) ∧
      awaitCancelled landed ⟨shared, [f]⟩ =
        some ⟨{ shared with applied := applied }.discard, []⟩ := by
  obtain ⟨task, batchCount, point⟩ := f
  cases point with
  | updating list index =>
    cases landed with
    | false => exact ⟨shared.applied, fun _ => rfl, fun _ => id, rfl⟩
    | true => exact ⟨shared.applied ++ [(list, index)], nofun, fun _ ha => List.mem_append_left _ ha,
        rfl⟩
  | _ => exact ⟨shared.applied, fun _ => rfl, fun _ => id, rfl⟩

/-- A stop that cancels a flush: the final flush finds nothing. -/
theorem stop_flush (landed : Bool) (shared : Shared) (f : Flush) :
    ∃ applied, (landed = false → applied = shared.applied) ∧
      (∀ a ∈ shared.applied, a ∈ applied) ∧
      stop landed ⟨shared, [f]⟩ =
        some ⟨{ shared.setRunning false with applied := applied }.discard, []⟩ := by
  obtain ⟨applied, hnot, hmono, hcancelled⟩ := awaitCancelled_flush landed (shared.setRunning false) f
  refine ⟨applied, hnot, hmono, ?_⟩
  have hstop : step ⟨shared, [f]⟩ .stop = some ⟨shared.setRunning false, [f]⟩ := rfl
  rw [stop, hstop, Option.bind_some, hcancelled, Option.bind_some]
  rfl

/-- A stop while the task is asleep: the final flush writes the batch. -/
theorem stop_asleep (landed : Bool) (shared : Shared) :
    stop landed ⟨shared, []⟩ =
      some ⟨if shared.writer.batch = [] then shared.setRunning false
        else flushed (shared.setRunning false), []⟩ := by
  have hstop : step ⟨shared, []⟩ .stop = some ⟨shared.setRunning false, []⟩ := rfl
  have hasleep : awaitCancelled landed ⟨shared.setRunning false, []⟩ =
      some ⟨shared.setRunning false, []⟩ := rfl
  rw [stop, hstop, Option.bind_some, hasleep, Option.bind_some]
  by_cases hbatch : shared.writer.batch = []
  · have hflush : step ⟨shared.setRunning false, []⟩ (.flush 0) =
        some ⟨shared.setRunning false, []⟩ := by
      simp [step, busy, startFlush, Shared.setRunning, hbatch]
    rw [hflush, Option.bind_some, if_pos hbatch]
    rfl
  · have hflush : step ⟨shared.setRunning false, []⟩ (.flush 0) =
        some ⟨shared.setRunning false, [⟨.caller 0, shared.writer.batch.length, .acquiring⟩]⟩ := by
      simp [step, busy, startFlush, System.spawn, Shared.setRunning, hbatch]
    rw [hflush, Option.bind_some, if_neg hbatch]
    exact run_flushSteps (shared.setRunning false) (.caller 0)

/-! ## COPYs of the newest list -/

/-- The COPYs of the newest list that are committed. -/
def newest (s : State) : List Copy := s.shared.copies.filter fun c => c.list = s.shared.current

theorem mem_newest {s : State} {c : Copy} :
    c ∈ newest s ↔ c ∈ s.shared.copies ∧ c.list = s.shared.current := by
  rw [newest, List.mem_filter, decide_eq_true_iff]

theorem rows_newest {s : State} (h : Sound s) {c : Copy} (hc : c ∈ newest s) :
    c.rows <+: s.shared.writer.batch := by
  obtain ⟨hmem, hlist⟩ := mem_newest.mp hc
  have hgrows := h.grows c (List.mem_append_left _ hmem)
  rwa [hlist, content_current] at hgrows

/-- With one flush under way there is at most one. -/
theorem newest_length {s : State} (h : Followed s) {f : Flush} (hs : s.suspended = [f]) :
    (newest s).length ≤ 1 := by
  have hcount := h.count
  rw [List.countP_eq_length_filter, hs] at hcount
  exact Nat.le_trans hcount List.countP_le_length

theorem newest_asleep {s : State} (h : Followed s) (hs : s.suspended = []) : newest s = [] := by
  refine List.eq_nil_iff_forall_not_mem.mpr fun c hc => ?_
  obtain ⟨hmem, hlist⟩ := mem_newest.mp hc
  obtain ⟨f, hf, _⟩ := h.followed c hmem hlist
  rw [hs] at hf
  cases hf

/-- The COPYs of an empty batch wrote nothing. -/
theorem losesNothing_empty {s s' : State} (h : Sound s) (hbatch : s.shared.writer.batch = [])
    (hcopies : s'.shared.copies = s.shared.copies) : LosesNothing s s' := by
  have hrows : (newest s).flatMap Copy.rows = [] := by
    refine List.flatMap_eq_nil_iff.mpr fun c hc => ?_
    have hrows := rows_newest h hc
    rwa [hbatch, List.prefix_nil] at hrows
  constructor
  · rw [hcopies, h.unflushed, hbatch]
    exact List.Perm.of_eq hrows
  · intro i hi
    rw [h.unflushed, hbatch] at hi
    cases hi

/-! ## When the stop loses nothing -/

theorem losesNothing_asleep {s s' : State} (h : Coherent s) (hs : s.suspended = [])
    (hcopies : s'.shared.copies = s.shared.copies ++ [⟨s.shared.current, s.shared.writer.batch⟩])
    (happlied : s'.shared.applied = s.shared.applied ++
      (List.range' 0 s.shared.writer.batch.length).map fun index => (s.shared.current, index)) :
    LosesNothing s s' := by
  have hnone : s.shared.copies.filter (fun c => c.list = s.shared.current) = [] :=
    newest_asleep h.followed hs
  constructor
  · rw [hcopies, List.filter_append, hnone, h.sound.unflushed]
    simp
  · intro i hi
    rw [h.sound.unflushed] at hi
    rw [happlied]
    refine List.mem_append_right _ (List.mem_map.mpr ⟨i, ?_, rfl⟩)
    rw [List.mem_range'_1]
    exact ⟨Nat.zero_le i, by omega⟩

theorem losesNothing_releasing {s s' : State} {f : Flush} (h : Coherent s) (hs : s.suspended = [f])
    (hpoint : f.point = .releasing)
    (hmem : ⟨s.shared.current, s.shared.writer.batch⟩ ∈ s.shared.copies)
    (hcopies : s'.shared.copies = s.shared.copies)
    (happlied : ∀ a ∈ s.shared.applied, a ∈ s'.shared.applied) : LosesNothing s s' := by
  have hnewest : newest s = [⟨s.shared.current, s.shared.writer.batch⟩] := by
    have hin := mem_newest.mpr ⟨hmem, rfl⟩
    have hlength := newest_length h.followed hs
    obtain ⟨c, hc⟩ := List.length_eq_one_iff.mp
      (Nat.le_antisymm hlength (List.length_pos_of_mem hin))
    rw [hc] at hin ⊢
    rw [List.mem_singleton.mp hin]
  constructor
  · rw [hcopies, h.sound.unflushed]
    show ((newest s).flatMap Copy.rows).Perm _
    rw [hnewest]
    simp
  · intro i hi
    rw [h.sound.unflushed] at hi
    obtain ⟨g, hg, hfollows⟩ := h.followed.followed _ hmem rfl
    rw [hs, List.mem_singleton] at hg
    subst hg
    rcases hfollows with ⟨index, hupdating⟩ | ⟨_, hdone⟩
    · rw [hpoint] at hupdating
      cases hupdating
    · exact happlied _ (hdone i hi)

/-- The other direction: a cancelled flush that has lost nothing had written and applied all. -/
theorem stopsSafely_of_flush {s s' : State} {f : Flush} (h : Coherent s) (hs : s.suspended = [f])
    (hloses : LosesNothing s s') (hcopies : s'.shared.copies = s.shared.copies)
    (happlied : s'.shared.applied = s.shared.applied) (hbatch : s.shared.writer.batch ≠ []) :
    f.point = .releasing ∧ ⟨s.shared.current, s.shared.writer.batch⟩ ∈ s.shared.copies := by
  have honce : ((newest s).flatMap Copy.rows).Perm s.shared.writer.batch := by
    rw [← h.sound.unflushed, newest, ← hcopies]
    exact hloses.once
  obtain ⟨c, hc⟩ : ∃ c, newest s = [c] := by
    refine List.length_eq_one_iff.mp (Nat.le_antisymm (newest_length h.followed hs) ?_)
    refine List.length_pos_iff.mpr fun hnil => hbatch ?_
    rw [hnil, List.flatMap_nil] at honce
    exact honce.symm.eq_nil
  obtain ⟨hmem, hlist⟩ := mem_newest.mp (hc ▸ List.mem_singleton_self c)
  have hrows : c.rows = s.shared.writer.batch := by
    have hsent := rows_newest h.sound (hc ▸ List.mem_singleton_self c)
    rw [hc, List.flatMap_singleton] at honce
    exact hsent.eq_of_length honce.length_eq
  have hcopy : c = ⟨s.shared.current, s.shared.writer.batch⟩ := by rw [← hlist, ← hrows]
  obtain ⟨g, hg, hfollows⟩ := h.followed.followed c hmem hlist
  rw [hs, List.mem_singleton] at hg
  subst hg
  refine ⟨?_, hcopy ▸ hmem⟩
  rcases hfollows with ⟨index, hupdating⟩ | ⟨hpoint, _⟩
  · -- the update it was cancelled at has not been applied
    obtain ⟨_, hindex, _⟩ := h.looping.loops g (by simp [hs]) _ index hupdating
    rw [content_current] at hindex
    have hin := hloses.applied index (by rw [h.sound.unflushed]; exact hindex)
    obtain ⟨_, hby⟩ := h.looping.appliedBy _ (happlied ▸ hin)
    obtain ⟨p, hp, hpast⟩ := hby rfl
    rw [hs, List.mem_singleton] at hp
    subst hp
    rcases hpast with hpoint | ⟨index', hpoint, hlt⟩
    · exact hpoint
    · rw [hupdating, Point.updating.injEq] at hpoint
      exact absurd hlt (by omega)
  · exact hpoint

/-- A stop loses nothing, whether or not the update it interrupts has landed, in exactly the
safe states. -/
theorem stop_loses_nothing_iff {batchSize : Nat} {batchTimeout : Timestamp} {s : State}
    (h : Reachable step (initial batchSize batchTimeout) (fun a => a.isClean = true) s)
    (hperiodic : ∀ f ∈ s.suspended, f.task = .periodic) :
    (∀ landed, ∃ s', stop landed s = some s' ∧ LosesNothing s s') ↔ StopsSafely s := by
  have hcoherent := coherent_of_reachable h
  rcases distinct_single hcoherent.distinct hperiodic with hs | ⟨f, hs⟩
  · obtain ⟨shared, suspended⟩ := s
    cases hs
    refine iff_of_true (fun landed => ⟨_, stop_asleep landed shared, ?_⟩) (.inl rfl)
    by_cases hbatch : shared.writer.batch = []
    · rw [if_pos hbatch]
      exact losesNothing_empty hcoherent.sound hbatch rfl
    · rw [if_neg hbatch]
      exact losesNothing_asleep hcoherent rfl rfl rfl
  · obtain ⟨shared, suspended⟩ := s
    cases hs
    constructor
    · intro hstop
      obtain ⟨applied, hnot, _, hstopped⟩ := stop_flush false shared f
      obtain ⟨s', hs', hloses⟩ := hstop false
      cases hstopped.symm.trans hs'
      by_cases hbatch : shared.writer.batch = []
      · exact .inr (.inl hbatch)
      · exact .inr (.inr ⟨f, List.mem_singleton_self f,
          stopsSafely_of_flush hcoherent rfl hloses rfl (hnot rfl) hbatch⟩)
    · intro hsafe landed
      obtain ⟨applied, _, hmono, hstopped⟩ := stop_flush landed shared f
      refine ⟨_, hstopped, ?_⟩
      rcases hsafe with hnone | hbatch | ⟨g, hg, hpoint, hmem⟩
      · cases hnone
      · exact losesNothing_empty hcoherent.sound hbatch rfl
      · rw [List.mem_singleton.mp hg] at hpoint
        exact losesNothing_releasing hcoherent rfl hpoint hmem rfl hmono

/-- One route in the batch, and the timed flush at its first await or not yet begun. -/
def beforeStop (flushing : Bool) : List Label :=
  .addRoute 0 (sampleRoute 10) 0 :: if flushing then [.timer 500] else []

theorem stop_loses_nothing_asleep :
    ∃ s, run step (initial 1000 500) (beforeStop false) = some s ∧
      ((∀ landed, ∃ s', stop landed s = some s' ∧ LosesNothing s s') ↔ StopsSafely s) ∧
      StopsSafely s :=
  ⟨_, rfl, @stop_loses_nothing_iff 1000 500 _ ⟨beforeStop false, by decide, rfl⟩ (by decide),
    by decide⟩

/-- A stop while the timed flush waits for its connection: the route is in no COPY. -/
theorem route_lost_by_stop :
    ∃ s s', run step (initial 1000 500) (beforeStop true) = some s ∧
      (∀ a ∈ beforeStop true, a.isClean = true) ∧ (∀ f ∈ s.suspended, f.task = .periodic) ∧
      stop false s = some s' ∧ s.shared.unflushed = [routeTuple (sampleRoute 10)] ∧
      s'.shared.writer.batch = [] ∧ s'.shared.copies = [] ∧ ¬ LosesNothing s s' :=
  ⟨_, _, rfl, by decide, by decide, rfl, by decide, by decide, by decide,
    fun hloses => by cases hloses.once.length_eq⟩

end Pybmpmon.Database.Shutdown
